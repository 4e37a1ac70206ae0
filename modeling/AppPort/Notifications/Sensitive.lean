import AppPort.Authority.Basic
import AppPort.Lib.Pattern

/-!
# The credential boundary of notifications

Content that names a credential or looks like one is rejected, not scrubbed:
`assertNoCredentials` walks a value and throws at the first path that does.
-/

namespace AppPort

open Effects Pattern

namespace Sensitive

/-- `/[0-9]/`. -/
def digit (n : Nat) : Bool := 48 ≤ n && n ≤ 57

/-- `/[A-Z]/`. -/
def upper (n : Nat) : Bool := 65 ≤ n && n ≤ 90

/-- `/[a-z]/`. -/
def lower (n : Nat) : Bool := 97 ≤ n && n ≤ 122

/-- `/[A-Za-z0-9]/`. -/
def alnum (n : Nat) : Bool := digit n || upper n || lower n

/-- `/\w/`. -/
def word (n : Nat) : Bool := alnum n || n == 95

/-- A class with some more characters. -/
def orAny (p : Nat → Bool) (more : String) (n : Nat) : Bool := p n || (jsUnits more).contains n

/-- `/\s/`. -/
def space (n : Nat) : Bool := isJsWhitespace (Char.ofNat n)

/-- A text, letter by letter. -/
def text (s : String) : Pattern := literal (jsUnits s)

/-- The lower-case unit of a letter. -/
def fold (n : Nat) : Nat := if upper n then n + 32 else n

/-- A text, upper and lower case alike (`/i`); `s` is in lower case. -/
def textCI (s : String) : Pattern := all ((jsUnits s).map fun n => unit fun c => fold c == n)

/-- `/\b/`. -/
def edge : Pattern := boundary word

end Sensitive

open Sensitive

/-- `SENSITIVE_KEYS`. -/
def SENSITIVE_KEYS : List String := [
  "password", "passwd", "pwd", "passphrase",
  "cookie", "cookies", "setcookie", "sessioncookie", "sessionid", "sid",
  "authorization", "proxyauthorization", "auth", "bearer",
  "refreshtoken", "accesstoken", "idtoken", "sessiontoken", "authtoken", "csrftoken", "xsrftoken", "token",
  "apikey", "xapikey", "apisecret", "clientsecret", "secret", "secretkey",
  "privatekey", "signingkey", "signingsecret", "credential", "credentials"]

/-- `SENSITIVE_KEY_SUFFIXES`. -/
def SENSITIVE_KEY_SUFFIXES : List String := [
  "password", "passwd", "token", "secret", "apikey", "cookie", "cookies", "privatekey", "signingkey",
  "authorization", "credential", "credentials"]

/-- `SENSITIVE_VALUE_PATTERNS`. -/
def SENSITIVE_VALUE_PATTERNS : List Pattern := [
  -- bearer and basic authorization headers
  all [edge, textCI "bearer", many 1 space, many 8 (orAny alnum "-._~+/")],
  all [edge, text "Basic", many 1 space, many 8 (orAny alnum "+/"),
    opt (text "="), opt (text "="), notAhead alnum],
  all [text "-----BEGIN ", many 0 (orAny upper " "), text "PRIVATE KEY-----"],
  -- JWT
  all [edge, text "eyJ", many 8 (orAny alnum "_-"), text ".eyJ", many 8 (orAny alnum "_-"), text ".",
    many 8 (orAny alnum "_-")],
  -- AppPort API key
  all [edge, text "app_live_", times 6 (fun n => digit n || (97 ≤ n && n ≤ 102)), text "_",
    many 16 (orAny alnum "_-")],
  -- Stripe-style secret keys
  all [edge, oneOf [text "sk", text "rk"], text "_", oneOf [text "live", text "test"], text "_",
    many 16 alnum],
  -- GitHub and Slack tokens
  all [edge, text "gh", unit (fun n => (jsUnits "pousr").contains n), text "_", many 30 alnum],
  all [edge, text "xox", unit (fun n => (jsUnits "abprs").contains n), text "-", many 10 (orAny alnum "-")],
  -- AWS access key id
  all [edge, text "AKIA", times 16 (fun n => digit n || upper n), edge],
  -- cookie header fragments
  all [edge, oneOf [textCI "session", textCI "sessionid", textCI "sid", textCI "connect.sid",
      seq (textCI "__secure-") (many 1 (orAny word "-")), seq (textCI "__host-") (many 1 (orAny word "-"))],
    text "=", many 8 (fun n => n != 59 && !space n)]]

/-- A lower-case letter or digit a character of a key stands for, if any: the two
letters outside ASCII whose lower case is an ASCII letter count. -/
def normalizeKeyChar (c : Char) : Option Char :=
  if c.isLower || c.isDigit then some c
  else if c.isUpper then some c.toLower
  else if c = '\u212A' then some 'k'
  else if c = '\u0130' then some 'i'
  else none

/-- `normalizeKey`. -/
def normalizeKey (key : String) : List Char := key.toList.filterMap normalizeKeyChar

/-- `isSensitiveKey`. -/
def isSensitiveKey (key : String) : Bool :=
  let normalized := normalizeKey key
  SENSITIVE_KEYS.any (fun k => k.toList == normalized) ||
    SENSITIVE_KEY_SUFFIXES.any fun suffix => suffix.toList.isSuffixOf normalized

/-- `isSensitiveValue`. -/
def isSensitiveValue (value : String) : Bool :=
  SENSITIVE_VALUE_PATTERNS.any fun r => r.test (jsUnits value)

/-- `NotificationSensitiveDataError`. -/
def sensitiveDataError (path : String) : JsError :=
  .other ("Notification content at \"" ++ path ++
    "\" looks like a credential; credentials cannot be sent in notifications")

/-- A sensitive key may stand over no value at all. -/
def isEmptyEntry : JsValue → Bool
  | .null | .undefined | .bool false => true
  | .str s => s == ""
  | _ => false

mutual

/-- `assertNoCredentials`: the first path that looks like a credential is refused. -/
def assertNoCredentials (path : String) : JsValue → Except JsError Unit
  | .str s => if isSensitiveValue s then .error (sensitiveDataError path) else .ok ()
  | .arr xs => assertElements path 0 xs
  | .obj fields => assertFields path fields
  | .undefined | .null | .bool _ | .num _ => .ok ()

/-- The elements of an array. -/
def assertElements (path : String) (index : Nat) : List JsValue → Except JsError Unit
  | [] => .ok ()
  | x :: xs => do
    assertNoCredentials (path ++ "[" ++ toString index ++ "]") x
    assertElements path (index + 1) xs

/-- The properties of an object. -/
def assertFields (path : String) : List (String × JsValue) → Except JsError Unit
  | [] => .ok ()
  | (key, entry) :: rest =>
    let entryPath := path ++ "." ++ key
    if isSensitiveKey key && !isEmptyEntry entry then .error (sensitiveDataError entryPath)
    else do
      assertNoCredentials entryPath entry
      assertFields path rest

end

/-- An optional text is checked when it is there. -/
def assertTextNoCredentials (path : String) : Option String → Except JsError Unit
  | none => .ok ()
  | some s => assertNoCredentials path (.str s)

example : isSensitiveValue "use Bearer abcdefgh12" = true := by decide +kernel

example : (assertNoCredentials "data" (.obj [("githubToken", .str "x")])).isOk = false := by
  decide +kernel

end AppPort
