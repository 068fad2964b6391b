import TimeTracker.Storage.Envelopes

/-!
# Which envelope a stored string is

A stored string is read twice, first as any document for its version and then
as the structure of that version.  The two readings together accept exactly
the plaintext objects of version 1 and the sealed objects of version 2.
-/

namespace TimeTracker.Storage.Envelopes

open TimeTracker.Text
open TimeTracker.Library
open TimeTracker.Crypto.Wire

section Shapes

variable {members : List (String × Json.Value)}

theorem Envelope.fromJson_eq_some {env : Envelope} :
    Envelope.fromJson (.object members) = some env ↔
      (Json.Value.object members).under "v" = [.nat env.v] ∧ env.v < 256 ∧
      (Json.Value.object members).under "alg" = [.string env.alg] ∧
      ((Json.Value.object members).under "body" = [] ∧ env.body = "" ∨
        (Json.Value.object members).under "body" = [.string env.body]) := by
  simp only [Envelope.fromJson, Json.Value.asStruct, Option.bind_eq_bind,
    Option.bind_eq_some_iff, Json.Value.required?_eq_some, Json.Value.natBelow?_eq_some,
    Json.Value.string?_eq_some, Option.pure_def, Option.some.injEq]
  constructor
  · rintro ⟨_, v, n, ⟨rfl, small⟩, _, alg, _, rfl, field, found, _, text, rfl⟩
    refine ⟨v, small, alg, ?_⟩
    cases field with
    | none =>
        cases text
        exact .inl ⟨Json.Value.field?_eq_some_none.mp found, rfl⟩
    | some value =>
        cases text
        exact .inr (Json.Value.field?_eq_some_some.mp found)
  · rintro ⟨v, small, alg, absent | present⟩
    · refine ⟨_, v, env.v, ⟨rfl, small⟩, _, alg, env.alg, rfl, none,
        Json.Value.field?_eq_some_none.mpr absent.1, "", rfl, ?_⟩
      rw [← absent.2]
    · exact ⟨_, v, env.v, ⟨rfl, small⟩, _, alg, env.alg, rfl, some _,
        Json.Value.field?_eq_some_some.mpr present, env.body, rfl, rfl⟩

theorem fromJson_eq_some {env : WireEnvelopeIn} :
    WireEnvelopeIn.fromJson (.object members) = some env ↔
      (Json.Value.object members).under "v" = [.nat env.v] ∧ env.v < 256 ∧
      (Json.Value.object members).under "alg" = [.string env.alg] ∧
      (Json.Value.object members).under "n" = [.string env.n] ∧
      (Json.Value.object members).under "ct" = [.string env.ct] := by
  simp only [WireEnvelopeIn.fromJson, Json.Value.asStruct, Option.bind_eq_bind,
    Option.bind_eq_some_iff, Json.Value.required?_eq_some, Json.Value.natBelow?_eq_some,
    Json.Value.string?_eq_some, Option.pure_def, Option.some.injEq]
  constructor
  · rintro ⟨_, v, n, ⟨rfl, small⟩, _, alg, _, rfl, _, nonce, _, rfl, _, body, _, rfl, rfl⟩
    exact ⟨v, small, alg, nonce, body⟩
  · rintro ⟨v, small, alg, nonce, body⟩
    exact ⟨_, v, env.v, ⟨rfl, small⟩, _, alg, env.alg, rfl, _, nonce, env.n, rfl, _, body,
      env.ct, rfl, rfl⟩

end Shapes

/-- The members of the plaintext envelope of a body: each field once, a missing
body standing for the empty text, and anything else besides. -/
structure IsPlaintext (members : List (String × Json.Value)) (body : String) : Prop where
  version : (Json.Value.object members).under "v" = [.nat VERSION]
  alg : (Json.Value.object members).under "alg" = [.string ALG_PLAINTEXT]
  body : (Json.Value.object members).under "body" = [] ∧ body = "" ∨
    (Json.Value.object members).under "body" = [.string body]

/-- The members of the envelope of a sealed body. -/
structure IsSealed (formats : Formats) (members : List (String × Json.Value))
    (sealed : Sealed) : Prop where
  version : (Json.Value.object members).under "v" = [.nat V2]
  alg : (Json.Value.object members).under "alg" = [.string ALG_V2]
  nonce : ∃ text, (Json.Value.object members).under "n" = [.string text] ∧
    formats.base64.decode text = some sealed.nonce
  ciphertext : ∃ text, (Json.Value.object members).under "ct" = [.string text] ∧
    formats.base64.decode text = some sealed.ciphertext
  fits : sealed.nonce.length = NONCE_LEN

section Dispatch

variable (formats : Formats)

/-- Only an object has a version. -/
theorem version?_eq_some {json : Json.Value} {n : Nat} (version : version? json = some n) :
    ∃ members, json = .object members ∧
      (Json.Value.object members).last? "v" = some (.nat n) := by
  obtain ⟨value, last, below⟩ := Option.bind_eq_some_iff.mp version
  obtain ⟨rfl, -⟩ := Json.Value.natBelow?_eq_some.mp below
  cases json with
  | object members => exact ⟨members, rfl, last⟩
  | null => cases last
  | bool value => cases last
  | nat value => cases last
  | number text => cases last
  | string value => cases last
  | array items => cases last

theorem version?_of_under {members : List (String × Json.Value)} {n : Nat}
    (here : (Json.Value.object members).under "v" = [.nat n]) (small : n < 2 ^ 64) :
    version? (.object members) = some n := by
  simp only [version?, Json.Value.last?, here, List.getLast?_singleton, Option.bind_eq_bind,
    Option.bind_some]
  exact Json.Value.natBelow?_eq_some.mpr ⟨rfl, small⟩

theorem planRead_of_version {raw : String} {json : Json.Value} {n : Nat}
    (read : formats.json.read raw = some json) (version : version? json = some n)
    (one : n ≠ 1) (two : n ≠ 2) :
    planRead formats raw = .error (if n < 256 then .unsupportedVersion n
      else .malformed (some s!"envelope version {n} is out of range")) := by
  unfold planRead
  simp only [read, version]
  split <;> rfl

theorem planRead_broken {raw : String} (broken : formats.json.read raw = none) :
    planRead formats raw = .error (.malformed none) := by
  simp only [planRead, broken]

theorem planRead_of_versionless {raw : String} {json : Json.Value}
    (read : formats.json.read raw = some json) (version : version? json = none) :
    planRead formats raw = .error (.malformed (some "missing or non-numeric `v` field")) := by
  unfold planRead
  simp only [read, version]

/-! ## The two bodies -/

theorem planPlaintext_eq_ok {members : List (String × Json.Value)} {plan : ReadPlan} :
    planPlaintext (.object members) = .ok plan ↔
      ∃ env, Envelope.fromJson (.object members) = some env ∧
        env.alg = ALG_PLAINTEXT ∧ plan = .plaintext env.body := by
  unfold planPlaintext
  cases Envelope.fromJson (.object members) with
  | none => simp
  | some env =>
      by_cases alg : env.alg = ALG_PLAINTEXT
      · simp [alg, eq_comm]
      · simp [alg]

/-- What the second reading checks, in its order. -/
theorem decodeV2_eq_ok {raw : String} {sealed : Sealed} :
    decodeV2 formats raw = .ok sealed ↔
      ∃ env, (formats.json.read raw).bind WireEnvelopeIn.fromJson = some env ∧
        env.v = V2 ∧ env.alg = ALG_V2 ∧
        formats.base64.decode env.n = some sealed.nonce ∧
        formats.base64.decode env.ct = some sealed.ciphertext ∧
        sealed.nonce.length = NONCE_LEN := by
  unfold decodeV2
  cases (formats.json.read raw).bind WireEnvelopeIn.fromJson with
  | none => simp
  | some env =>
      by_cases version : env.v = V2
      · by_cases alg : env.alg = ALG_V2
        · cases nonce : formats.base64.decode env.n with
          | none => simp [version, alg, decodeField, nonce, bind, Except.bind]
          | some n =>
              cases ciphertext : formats.base64.decode env.ct with
              | none => simp [version, alg, decodeField, nonce, ciphertext, bind, Except.bind]
              | some ct =>
                  by_cases fits : n.length = NONCE_LEN
                  · have decoded : Sealed.mk n ct = sealed ↔
                        n = sealed.nonce ∧ ct = sealed.ciphertext := by
                      cases sealed
                      simp
                    simp [version, alg, decodeField, nonce, ciphertext, fits, bind,
                      Except.bind, pure, Except.pure, decoded]
                    grind
                  · simp [version, alg, decodeField, nonce, ciphertext, fits, bind,
                      Except.bind]
                    grind
        · simp [version, alg, bind, Except.bind]
      · simp [version, bind, Except.bind]

theorem planRead_one {raw : String} {json : Json.Value}
    (read : formats.json.read raw = some json) (version : version? json = some 1) :
    planRead formats raw = planPlaintext json := by
  unfold planRead
  simp only [read, version]

theorem planRead_two {raw : String} {json : Json.Value}
    (read : formats.json.read raw = some json) (version : version? json = some 2) :
    planRead formats raw = match decodeV2 formats raw with
      | .ok body => .ok (.sealed body)
      | .error error => .error (.wire error) := by
  cases decoded : decodeV2 formats raw <;>
    simp only [planRead, read, version, decoded]

/-! ## What is accepted -/

/-- A plan was made from an object, by the reading of its version. -/
theorem planRead_ok_cases {raw : String} {plan : ReadPlan}
    (ok : planRead formats raw = .ok plan) :
    ∃ members, formats.json.read raw = some (.object members) ∧
      ((Json.Value.object members).last? "v" = some (.nat 1) ∧
          planPlaintext (.object members) = .ok plan ∨
        (Json.Value.object members).last? "v" = some (.nat 2) ∧
          ∃ sealed, decodeV2 formats raw = .ok sealed ∧ plan = .sealed sealed) := by
  cases read : formats.json.read raw with
  | none =>
      simp only [planRead, read] at ok
      cases ok
  | some json =>
      cases version : version? json with
      | none =>
          rw [planRead_of_versionless formats read version] at ok
          cases ok
      | some n =>
          obtain ⟨members, rfl, last⟩ := version?_eq_some version
          refine ⟨members, rfl, ?_⟩
          by_cases one : n = 1
          · subst one
            exact .inl ⟨last, (planRead_one formats read version).symm.trans ok⟩
          by_cases two : n = 2
          · subst two
            rw [planRead_two formats read version] at ok
            cases decoded : decodeV2 formats raw with
            | error error =>
                rw [decoded] at ok
                cases ok
            | ok sealed =>
                rw [decoded] at ok
                cases ok
                exact .inr ⟨last, sealed, rfl, rfl⟩
          · rw [planRead_of_version formats read version one two] at ok
            cases ok

theorem planRead_plaintext {raw body : String} :
    planRead formats raw = .ok (.plaintext body) ↔
      ∃ members, formats.json.read raw = some (.object members) ∧
        IsPlaintext members body := by
  constructor
  · intro ok
    obtain ⟨members, read, ⟨last, plain⟩ | ⟨-, sealed, -, other⟩⟩ :=
      planRead_ok_cases formats ok
    · obtain ⟨env, parsed, alg, same⟩ := planPlaintext_eq_ok.mp plain
      obtain ⟨v, -, algField, bodyField⟩ := Envelope.fromJson_eq_some.mp parsed
      cases same
      refine ⟨members, read, ?_, alg ▸ algField, bodyField⟩
      rw [Json.Value.last?, v, List.getLast?_singleton] at last
      rw [v, Option.some.inj last]
      rfl
    · cases other
  · rintro ⟨members, read, plain⟩
    rw [planRead_one formats read (version?_of_under plain.version (by decide))]
    exact planPlaintext_eq_ok.mpr ⟨⟨VERSION, ALG_PLAINTEXT, body⟩,
      Envelope.fromJson_eq_some.mpr
        ⟨plain.version, (by decide : VERSION < 256), plain.alg, plain.body⟩,
      rfl, rfl⟩

theorem planRead_sealed {raw : String} {sealed : Sealed} :
    planRead formats raw = .ok (.sealed sealed) ↔
      ∃ members, formats.json.read raw = some (.object members) ∧
        IsSealed formats members sealed := by
  constructor
  · intro ok
    obtain ⟨members, read, ⟨-, plain⟩ | ⟨-, body, decoded, same⟩⟩ :=
      planRead_ok_cases formats ok
    · obtain ⟨env, -, -, other⟩ := planPlaintext_eq_ok.mp plain
      cases other
    · cases same
      obtain ⟨env, parsed, version, alg, nonce, ciphertext, fits⟩ :=
        (decodeV2_eq_ok formats).mp decoded
      rw [read, Option.bind_some] at parsed
      obtain ⟨v, -, algField, nField, ctField⟩ := fromJson_eq_some.mp parsed
      exact ⟨members, read, version ▸ v, alg ▸ algField, ⟨_, nField, nonce⟩,
        ⟨_, ctField, ciphertext⟩, fits⟩
  · rintro ⟨members, read, ⟨version, alg, ⟨n, nField, nonce⟩, ⟨ct, ctField, ciphertext⟩, fits⟩⟩
    have parsed : (formats.json.read raw).bind WireEnvelopeIn.fromJson =
        some ⟨V2, ALG_V2, n, ct⟩ := by
      rw [read, Option.bind_some]
      exact fromJson_eq_some.mpr ⟨version, (by decide : V2 < 256), alg, nField, ctField⟩
    have decoded : decodeV2 formats raw = .ok sealed :=
      (decodeV2_eq_ok formats).mpr ⟨_, parsed, rfl, rfl, nonce, ciphertext, fits⟩
    rw [planRead_two formats read (version?_of_under version (by decide)), decoded]

/-- A sealed value reads back when its nonce fits, and is refused when not. -/
theorem planRead_encodeV2_eq (sealed : Sealed) :
    planRead formats (encodeV2 formats sealed) =
      if sealed.nonce.length = NONCE_LEN then .ok (.sealed sealed)
      else .error (.wire (.nonceLength sealed.nonce.length)) := by
  split
  · next fits => exact planRead_encodeV2 formats fits
  · next unfit =>
    have shape : WireEnvelopeIn.fromJson (.object (wireEnvelopeOut formats sealed)) =
        some { v := V2, alg := ALG_V2,
               n := formats.base64.encode sealed.nonce,
               ct := formats.base64.encode sealed.ciphertext } := rfl
    have refused : decodeV2 formats (encodeV2 formats sealed) =
        .error (.nonceLength sealed.nonce.length) := by
      simp [decodeV2, read_encodeV2, shape, unfit, bind, Except.bind]
      rfl
    rw [planRead_two formats (read_encodeV2 formats sealed) rfl, refused]

/-- Reading envelopes inverts writing them and is unambiguous: the plaintext
plan is made of exactly the plaintext objects, the sealed plan of exactly the
sealed ones, and every other version, shape or text is an error. -/
theorem planRead_unambiguous :
    (∀ body, planRead formats (wrapV1 formats body) = .ok (.plaintext body)) ∧
    (∀ sealed, planRead formats (encodeV2 formats sealed) =
      if sealed.nonce.length = NONCE_LEN then .ok (.sealed sealed)
      else .error (.wire (.nonceLength sealed.nonce.length))) ∧
    (∀ raw body, planRead formats raw = .ok (.plaintext body) ↔
      ∃ members, formats.json.read raw = some (.object members) ∧
        IsPlaintext members body) ∧
    (∀ raw sealed, planRead formats raw = .ok (.sealed sealed) ↔
      ∃ members, formats.json.read raw = some (.object members) ∧
        IsSealed formats members sealed) ∧
    (∀ raw, formats.json.read raw = none → planRead formats raw = .error (.malformed none)) ∧
    (∀ raw json, formats.json.read raw = some json → version? json = none →
      planRead formats raw = .error (.malformed (some "missing or non-numeric `v` field"))) ∧
    (∀ raw json n, formats.json.read raw = some json → version? json = some n →
      n ≠ 1 → n ≠ 2 → planRead formats raw = .error (if n < 256 then .unsupportedVersion n
        else .malformed (some s!"envelope version {n} is out of range"))) :=
  ⟨planRead_wrapV1 formats, planRead_encodeV2_eq formats,
    fun _ _ => planRead_plaintext formats, fun _ _ => planRead_sealed formats,
    fun _ => planRead_broken formats, fun _ _ => planRead_of_versionless formats,
    fun _ _ _ => planRead_of_version formats⟩

end Dispatch

end TimeTracker.Storage.Envelopes
