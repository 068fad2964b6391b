import TimeTracker.Library.Decimal
import TimeTracker.Server.Functions
import TimeTracker.Server.MagicLink

/-!
# Asking for a sign-in link, and following it

`request_magic_link` mails a link, and `GET /magic/{token}` spends it: the
response carries a session, or a page that says what became of the link.  Both
work on the table of links; the handler also finds or creates the account.
-/

namespace TimeTracker.Server.LinkHandler

open TimeTracker.Text
open TimeTracker.Library
open TimeTracker.Library.Atomic
open TimeTracker.Server.Schema
open TimeTracker.Server.Store
open TimeTracker.Server.Functions (SessionClaims SetCookie)
open TimeTracker.Server.MagicLink (Links ConsumeResult)

structure Tables where
  links : Links
  db : Database

/-- The statements of the two handlers, and of the server functions. -/
inductive Site
  | conn
  | link (site : MagicLink.Site)
  | server (site : Functions.Site)
  deriving DecidableEq, Repr

def linksPart : Part Tables Links where
  get := Tables.links
  set links tables := { tables with links }
  get_set _ _ := rfl
  set_get _ := rfl

def dbPart : Part Tables Database where
  get := Tables.db
  set db tables := { tables with db }
  get_set _ _ := rfl
  set_get _ := rfl

def faults : Faults DbError DbError where
  raise := id
  lower := id
  lower_raise _ := rfl

abbrev Handler (α : Type) := Program Tables Site DbError α

/-- A message ready to send, independent of transport. -/
structure OutboundEmail where
  recipient : String
  subject : String
  text : String
  html : Option String
  deriving DecidableEq, Repr

/-- The sign-in email's plain-text and HTML bodies. -/
def magicLinkEmail (url : String) (ttlSeconds : Int) : String × String :=
  let minutes := String.ofList (Decimal.write (ttlSeconds.tdiv 60))
  ("Here's your sign-in link for Time Tracker:\n\n  " ++ url ++
      "\n\nIt expires in " ++ minutes ++ " minutes and can only be used once.\n\n" ++
      "If you didn't request this, you can ignore this email.\n",
    "<p>Here's your sign-in link for Time Tracker:</p>" ++
      "<p><a href=\"" ++ url ++ "\">" ++ url ++ "</a></p>" ++
      "<p>It expires in " ++ minutes ++ " minutes and can only be used once.</p>" ++
      "<p>If you didn't request this, you can ignore this email.</p>")

/-- Partially hides an address for display on the "check your email" screen. -/
def mask (email : String) : String :=
  match splitOnce '@' email.toList with
  | none => "•••"
  | some (localPart, domain) =>
      if localPart.length ≤ 2 then "•••@" ++ String.ofList domain
      else String.ofList (localPart.take 3) ++ "•••@" ++ String.ofList domain

/-- The five HTML-significant characters as entities. -/
def escapeChar (c : Char) : List Char :=
  if c = '&' then "&amp;".toList
  else if c = '<' then "&lt;".toList
  else if c = '>' then "&gt;".toList
  else if c = '"' then "&quot;".toList
  else if c = '\'' then "&#39;".toList
  else [c]

/-- Escapes the five HTML-significant characters. -/
def escapeHtml (raw : String) : String :=
  String.ofList (raw.toList.flatMap escapeChar)

/-- A standalone page, with its own minimal markup. -/
def page (heading body : String) : String :=
  "<!doctype html><html lang=\"en\"><head><meta charset=\"utf-8\">" ++
    "<meta name=\"viewport\" content=\"width=device-width, initial-scale=1\">" ++
    "<title>" ++ heading ++ " — Time Tracker</title></head>" ++
    "<body style=\"font-family:system-ui,sans-serif;background:#f9fafb;color:#1f2937;" ++
    "max-width:32rem;margin:4rem auto;padding:1rem;\">" ++
    "<h1 style=\"font-size:1.25rem;\">" ++ heading ++ "</h1><p>" ++ body ++ "</p>" ++
    "<p><a href=\"/\" style=\"color:#2563eb;\">Back to Time Tracker</a></p>" ++
    "</body></html>"

/-- The "we've sent you a fresh link" page. -/
def sentPage (email : String) : String :=
  page "Check your email"
    ("That link had already been used or had expired, so we've sent a fresh one to <strong>" ++
      escapeHtml (mask email) ++ "</strong>.")

inductive Body
  | empty
  | text (text : String)
  | html (html : String)
  deriving DecidableEq, Repr

/-- A response, and the message sent with it. -/
structure Response where
  status : Nat
  body : Body
  cookie : Option SetCookie := none
  location : Option String := none
  mail : Option OutboundEmail := none
  deriving DecidableEq, Repr

def OK : Nat := 200
def SEE_OTHER : Nat := 303
def NOT_FOUND : Nat := 404
def INTERNAL_SERVER_ERROR : Nat := 500

def tryAgain : Response :=
  { status := INTERNAL_SERVER_ERROR, body := .text "Try again in a moment." }

/-- Sets the session cookie and redirects to the start page. -/
def signInResponse (email : String) (epoch : Int) : Response :=
  { status := SEE_OTHER, body := .empty, cookie := some (.session { email, epoch }),
    location := some "/" }

/-- Wraps a rendered body in an HTML response. -/
def htmlPage (status : Nat) (body : String) : Response :=
  { status, body := .html body }

/-! ## The two handlers -/

/-- What a request finds when it comes in: the clock and the settings, the token a mint
draws, and the addresses both rate limits let through. -/
structure LinkCtx where
  now : Timestamp
  ttl : Int
  siteBaseUrl : String
  drawn : String
  admits : String → Bool

/-- The message that carries a link. -/
def linkEmail (ctx : LinkCtx) (recipient token : String) : OutboundEmail :=
  let url := ctx.siteBaseUrl ++ "/magic/" ++ token
  let (text, html) := magicLinkEmail url ctx.ttl
  { recipient, subject := "Your Time Tracker sign-in link", text, html := some html }

section Handlers

variable (hash : String → Bytes) (ctx : LinkCtx)

def mint (email : String) : Handler (Except MagicLink.LinkError String) :=
  (MagicLink.mint hash ctx.drawn ctx.now email ctx.ttl).run.zoom linksPart faults .link

/-- Mails a sign-in link.  Nothing a caller could probe with changes the answer. -/
def requestMagicLink (email : String) :
    Handler (Except String Unit × Option OutboundEmail) := do
  match normalizeEmail email with
  | none => return (.ok (), none)
  | some normalized =>
      if !ctx.admits normalized then
        return (.ok (), none)
      let conn ← (Program.perform .conn fun tables => .ok ((), tables) : Handler _)
      match conn with
      | .error _ => return (.error "Internal server error", none)
      | .ok () =>
          match ← mint hash ctx normalized with
          | .error _ => return (.ok (), none)
          | .ok token => return (.ok (), some (linkEmail ctx normalized token))

/-- A used or expired link: mints a fresh one, mails it, and says so. -/
def reissue (email : String) : Handler Response := do
  if !ctx.admits email then
    return htmlPage OK (sentPage email)
  match ← mint hash ctx email with
  | .ok token =>
      return { htmlPage OK (sentPage email) with mail := some (linkEmail ctx email token) }
  | .error _ =>
      let body := page "Please try again"
        "We couldn't send a new link. Go back and request one."
      return htmlPage INTERNAL_SERVER_ERROR body

/-- Spends a sign-in link and sets the session cookie. -/
def consume (token : String) : Handler Response := do
  let result ← (MagicLink.consume hash ctx.now token).run.zoom linksPart faults Site.link
  match result with
  | .ok (.consumed email) => do
      let reply ← (Program.perform .findOrCreate (findOrCreate email ctx.now)).zoom dbPart faults
        Site.server
      match reply with
      | .ok user => return signInResponse user.email user.sessionEpoch
      | .error _ => return tryAgain
  | .ok (.stale email) => reissue hash ctx email
  | .ok .notFound => return { status := NOT_FOUND, body := .text "This link is no longer valid." }
  -- so does a request that gets no connection
  | .error _ => return tryAgain

end Handlers

end TimeTracker.Server.LinkHandler
