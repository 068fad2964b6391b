import Mathlib.Logic.Basic
import Mathlib.Data.List.Basic

/-!
# Wrapped keys

An ideal suite of key derivation and key wrap: a route and a secret derive a
key of their own, and a wrapped key opens exactly under the key it was wrapped
with.  Writing the secret next to the data key is one such suite, for runs on
concrete keys.
-/

namespace TimeTracker.Library.KeyWrap

/-- An ideal suite for routes `ι`, secrets `S`, blobs `W` and data keys `D`. -/
structure Suite (ι S W D : Type) where
  Kek : Type
  derive : ι → S → Kek
  wrap : Kek → D → W
  unwrap : Kek → W → Option D
  derive_inj : ∀ {route other secret otherSecret},
    derive route secret = derive other otherSecret →
      route = other ∧ secret = otherSecret
  unwrap_eq_some : ∀ {kek blob dek}, unwrap kek blob = some dek ↔ blob = wrap kek dek
  kek_of_wrap : ∀ {kek other dek otherDek},
    wrap kek dek = wrap other otherDek → kek = other

section Suites

variable {ι S W D : Type} (suite : Suite ι S W D)

@[simp] theorem unwrap_wrap (kek : suite.Kek) (dek : D) :
    suite.unwrap kek (suite.wrap kek dek) = some dek :=
  suite.unwrap_eq_some.mpr rfl

/-- A blob determines what it was made of. -/
theorem wrap_inj {kek other : suite.Kek} {dek otherDek : D}
    (same : suite.wrap kek dek = suite.wrap other otherDek) :
    kek = other ∧ dek = otherDek := by
  have keks := suite.kek_of_wrap same
  subst keks
  have opened := unwrap_wrap suite kek dek
  rw [same, unwrap_wrap] at opened
  exact ⟨rfl, (Option.some.inj opened).symm⟩

/-- The blob was made by wrapping this data key, under whatever key. -/
def Wraps (dek : D) (blob : W) : Prop :=
  ∃ kek, blob = suite.wrap kek dek

variable {suite}

/-- A blob holds one data key. -/
theorem Wraps.unique {dek other : D} {blob : W} (first : Wraps suite dek blob)
    (second : Wraps suite other blob) : dek = other := by
  obtain ⟨kek, rfl⟩ := first
  obtain ⟨otherKek, same⟩ := second
  exact (wrap_inj suite same).2

theorem wraps_of_unwrap {kek : suite.Kek} {dek : D} {blob : W}
    (opened : suite.unwrap kek blob = some dek) : Wraps suite dek blob :=
  ⟨kek, suite.unwrap_eq_some.mp opened⟩

variable (suite)

/-- The data key, wrapped under the key a route and a secret derive. -/
def lock (route : ι) (secret : S) (dek : D) : W :=
  suite.wrap (suite.derive route secret) dek

/-- Open a blob with a route's secret. -/
def openWith (route : ι) (secret : S) (blob : W) : Option D :=
  suite.unwrap (suite.derive route secret) blob

/-- A locked data key opens with the same route and secret, and with no other. -/
@[simp] theorem openWith_lock {route other : ι} {secret otherSecret : S} {dek found : D} :
    openWith suite other otherSecret (lock suite route secret dek) = some found ↔
      (route = other ∧ secret = otherSecret) ∧ dek = found := by
  rw [openWith, lock, suite.unwrap_eq_some]
  constructor
  · intro same
    obtain ⟨keks, deks⟩ := wrap_inj suite same
    exact ⟨suite.derive_inj keks, deks⟩
  · rintro ⟨⟨rfl, rfl⟩, rfl⟩
    rfl

theorem wraps_lock (route : ι) (secret : S) (dek : D) :
    Wraps suite dek (lock suite route secret dek) :=
  ⟨_, rfl⟩

end Suites

/-! ## The secret in the clear -/

section Labelled

variable {ι : Type} (tag : ι → UInt8) (padding : ι → Nat)

/-- A blob that names its route, its data key and its secret, in this order,
and ends in the padding of its route. -/
def labelledBlob (kek : ι × List UInt8) (dek : UInt8) : List UInt8 :=
  tag kek.1 :: dek :: (kek.2 ++ List.replicate (padding kek.1) 0)

/-- The suite whose blobs spell everything out. -/
def labelled (distinct : Function.Injective tag) :
    Suite ι (List UInt8) (List UInt8) UInt8 where
  Kek := ι × List UInt8
  derive := Prod.mk
  wrap := labelledBlob tag padding
  unwrap kek blob :=
    blob[1]?.bind fun dek => if blob = labelledBlob tag padding kek dek then some dek else none
  derive_inj same := Prod.mk.injEq .. ▸ same
  unwrap_eq_some := by
    intro kek blob dek
    constructor
    · intro opened
      obtain ⟨found, -, same⟩ := Option.bind_eq_some_iff.mp opened
      split at same
      · cases same
        assumption
      · cases same
    · rintro rfl
      simp [labelledBlob]
  kek_of_wrap := by
    rintro ⟨route, secret⟩ ⟨other, otherSecret⟩ dek otherDek same
    obtain ⟨tags, rest⟩ := List.cons.inj same
    obtain rfl : route = other := distinct tags
    have secrets := List.append_cancel_right (List.cons.inj rest).2
    exact congrArg (Prod.mk route) secrets

end Labelled

end TimeTracker.Library.KeyWrap
