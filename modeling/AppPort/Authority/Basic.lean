import Mathlib.Data.List.Forall2
import Mathlib.Order.Defs.LinearOrder
import AppPort.Lib.Task

/-!
# Values, failures and time

What every service shares: untyped JavaScript values as far as the services look
into them, the failures they throw, and timestamps.

Timestamps are ISO strings in the code, and it compares them in two ways: as texts,
with `<=`, and by the instants they denote (`getTime`). The model is generic in a linear
order, that of the texts, with an instant for each; where a result needs a law that
connects the two, or one of the arithmetic, it assumes it by name.
-/

namespace AppPort

/-- An untyped value, as a host hands it to a service. -/
inductive JsValue where
  | undefined
  | null
  | bool (b : Bool)
  | num (n : Int)
  | str (s : String)
  | arr (xs : List JsValue)
  | obj (fields : List (String × JsValue))
  deriving Repr, Inhabited

namespace JsValue

/-- `value?.name`: the value of a property, `undefined` where there is none. -/
def prop (v : JsValue) (name : String) : JsValue :=
  match v with
  | .obj fields => (fields.lookup name).getD .undefined
  | _ => .undefined

/-- `value === text`. -/
def isText (v : JsValue) (text : String) : Bool :=
  match v with
  | .str s => s == text
  | _ => false

/-- JavaScript truthiness. -/
def truthy : JsValue → Bool
  | .undefined | .null => false
  | .bool b => b
  | .num n => n != 0
  | .str s => s != ""
  | .arr _ | .obj _ => true

mutual

/-- `String(value)`. -/
def toText : JsValue → String
  | .undefined => "undefined"
  | .null => "null"
  | .bool b => if b then "true" else "false"
  | .num n => toString n
  | .str s => s
  | .arr xs => joined xs
  | .obj _ => "[object Object]"

/-- `xs.join(',')`: `null` and `undefined` are empty. -/
def joined : List JsValue → String
  | [] => ""
  | [x] => element x
  | x :: xs => element x ++ "," ++ joined xs

/-- An element of a joined array. -/
def element : JsValue → String
  | .undefined | .null => ""
  | .bool b => if b then "true" else "false"
  | .num n => toString n
  | .str s => s
  | .arr xs => joined xs
  | .obj _ => "[object Object]"

end

/-- The text of a string value (`typeof value === 'string'`). -/
def text? : JsValue → Option String
  | .str s => some s
  | _ => none

@[simp] theorem isText_iff (v : JsValue) (text : String) : v.isText text = true ↔ v = .str text := by
  cases v <;> simp [isText]

end JsValue

/-- `Boolean(s)` of an optional string: present and not empty. -/
def present : Option String → Bool
  | some s => s != ""
  | none => false

/-- `s ? { field: s } : {}`: an empty optional string is dropped. -/
def keepPresent (s : Option String) : Option String :=
  if present s then s else none

/-- The code points `String.prototype.trim` removes. -/
def isJsWhitespace (c : Char) : Bool :=
  let n := c.toNat
  (9 ≤ n && n ≤ 13) || n == 0x20 || n == 0xA0 || n == 0x1680 || (0x2000 ≤ n && n ≤ 0x200A) ||
    n == 0x2028 || n == 0x2029 || n == 0x202F || n == 0x205F || n == 0x3000 || n == 0xFEFF

/-- `!s.trim()`. -/
def isBlank (s : String) : Bool := s.toList.all isJsWhitespace

/-- `s.trim()`. -/
def jsTrim (s : String) : String :=
  String.ofList ((s.toList.dropWhile isJsWhitespace).reverse.dropWhile isJsWhitespace).reverse

/-- The UTF-16 code units of a string. -/
def jsUnits (s : String) : List Nat :=
  s.toList.flatMap fun c =>
    let n := c.toNat
    if n < 0x10000 then [n] else [0xD800 + (n - 0x10000) / 0x400, 0xDC00 + (n - 0x10000) % 0x400]

/-- `s.length`. -/
def jsLength (s : String) : Nat := (jsUnits s).length

/-- A `Buffer` of a length. -/
abbrev SizedBytes (size : Nat) := { bytes : List UInt8 // bytes.length = size }

/-- `Buffer.from(s)`. -/
def utf8 (s : String) : List UInt8 := s.toUTF8.data.toList

/-- `[...new Set(values)]`. -/
def distinct : List String → List String
  | [] => []
  | value :: rest => value :: (distinct rest).filter (· ≠ value)

theorem mem_distinct {s : String} {values : List String} : s ∈ distinct values ↔ s ∈ values := by
  induction values with
  | nil => exact Iff.rfl
  | cons value rest ih =>
    simp only [distinct, List.mem_cons, List.mem_filter, ih, decide_eq_true_eq]
    by_cases h : s = value
    · simp [h]
    · simp [h]

theorem nodup_distinct (values : List String) : (distinct values).Nodup := by
  induction values with
  | nil => exact List.nodup_nil
  | cons value rest ih =>
    refine List.nodup_cons.mpr ⟨fun h => ?_, ih.filter _⟩
    simpa using (List.mem_filter.mp h).2

theorem distinct_of_nodup {values : List String} (h : values.Nodup) : distinct values = values := by
  induction values with
  | nil => rfl
  | cons value rest ih =>
    obtain ⟨hnew, hrest⟩ := List.nodup_cons.mp h
    rw [distinct, ih hrest, List.filter_eq_self.mpr]
    intro other hother
    simp only [decide_eq_true_eq]
    rintro rfl
    exact hnew hother

theorem length_distinct_le (values : List String) : (distinct values).length ≤ values.length := by
  induction values with
  | nil => exact Nat.le_refl _
  | cons value rest ih =>
    exact Nat.succ_le_succ (Nat.le_trans (List.length_filter_le _ _) ih)

/-- `s.startsWith(pre)`. -/
def hasPrefix (s pre : String) : Bool := pre.toList.isPrefixOf s.toList

/-- The codes of `ServiceAuthorityError`. -/
inductive ServiceFailureCode where
  | denied
  | authorityUnavailable
  | authorizationTimeout
  | invalidRequest
  | providerError
  | unauthenticated
  | notFound
  | custodyReadOnly
  deriving DecidableEq, Repr

/-- The code as the source spells it. -/
def ServiceFailureCode.text : ServiceFailureCode → String
  | .denied => "DENIED"
  | .authorityUnavailable => "AUTHORITY_UNAVAILABLE"
  | .authorizationTimeout => "AUTHORIZATION_TIMEOUT"
  | .invalidRequest => "INVALID_REQUEST"
  | .providerError => "PROVIDER_ERROR"
  | .unauthenticated => "UNAUTHENTICATED"
  | .notFound => "NOT_FOUND"
  | .custodyReadOnly => "CUSTODY_READ_ONLY"

/-- What a `ServiceAuthorityError` says beside its code and message. -/
structure FailureDetails where
  capability : Option String := none
  decisionId : Option String := none
  reason : Option String := none
  deriving DecidableEq, Repr

/-- How one attempt to deliver a webhook went. It stands here because the error of
a failed attempt carries it. -/
structure WebhookDeliveryResult where
  success : Bool
  statusCode : Option Nat := none
  error : Option String := none
  code : Option ServiceFailureCode := none
  deriving DecidableEq, Repr

structure ServiceAuthorityError where
  code : ServiceFailureCode
  message : String
  details : FailureDetails := {}
  /-- Attached by the webhook service to the error of a provider's answer. -/
  outcome : Option WebhookDeliveryResult := none
  deriving DecidableEq, Repr

/-- What a service operation may throw: its own error, or anything else (a store
failure, a `RangeError`, what a host's code raised), of which the services look
at the message only. -/
inductive JsError where
  | authority (e : ServiceAuthorityError)
  /-- A `ConditionalConflictError` of the database: a precondition did not hold. -/
  | conflict (message : String)
  /-- A `ConfigurationValidationError`. -/
  | validation (message : String)
  | other (message : String)
  deriving DecidableEq, Repr

/-- `error instanceof Error ? error.message : String(error)`. -/
def JsError.message : JsError → String
  | .authority e => e.message
  | .conflict m | .validation m | .other m => m

/-- `isServiceAuthorityError(error) ? error.code : undefined`. -/
def JsError.code? : JsError → Option ServiceFailureCode
  | .authority e => some e.code
  | .conflict _ | .validation _ | .other _ => none

/-- `isConditionalConflict(error)`. -/
def JsError.isConflict : JsError → Bool
  | .conflict _ => true
  | .authority _ | .validation _ | .other _ => false

/-- `new ServiceAuthorityError(code, message, details)`. -/
def serviceError (code : ServiceFailureCode) (message : String)
    (details : FailureDetails := {}) : JsError := .authority { code, message, details }

@[simp] theorem code?_serviceError (code : ServiceFailureCode) (message : String)
    (details : FailureDetails) : (serviceError code message details).code? = some code := rfl

/-- `new ServiceMigrationError(message)`: an `INVALID_REQUEST`. -/
def migrationError (message : String) : JsError :=
  serviceError .invalidRequest (message ++ " See docs/AUTHORITY.md#migration.")

@[simp] theorem code?_migrationError (message : String) :
    (migrationError message).code? = some .invalidRequest := rfl

/-- `new Date(value).toISOString()` of a date out of range. -/
def rangeError : JsError := .other "Invalid time value"

/-- A failed `requireAbsent`. -/
def absentError : JsError := .conflict "Transaction precondition failed: record already exists"

/-- A failed `expectedVersion`. -/
def versionError : JsError := .conflict "Transaction precondition failed: version mismatch"

/-- Each element of a paired list has its partner. -/
theorem exists_partner {α β : Type} {R : α → β → Prop} {l : List α} {u : List β}
    (h : List.Forall₂ R l u) : ∀ a ∈ l, ∃ b ∈ u, R a b := by
  induction h with
  | nil => simp
  | cons hhead _ ih =>
    intro a ha
    rcases List.mem_cons.mp ha with rfl | ha
    · exact ⟨_, List.mem_cons_self, hhead⟩
    · obtain ⟨b, hb, hR⟩ := ih a ha
      exact ⟨b, List.mem_cons_of_mem _ hb, hR⟩

theorem bind_eq_ok {ε α β : Type} {x : Except ε α} {f : α → Except ε β} {b : β}
    (h : x >>= f = .ok b) : ∃ a, x = .ok a ∧ f a = .ok b := by
  cases x with
  | error e => cases h
  | ok a => exact ⟨a, rfl, h⟩

/-- Timestamps: compared with `<=`, moved by milliseconds, and read from text. -/
class Timestamp (τ : Type) extends LinearOrder τ where
  /-- `new Date(t).getTime()`. -/
  getTime : τ → Int
  /-- `new Date(t.getTime() + ms).toISOString()`; `none` where that throws. -/
  after : τ → Nat → Option τ
  /-- `new Date(t.getTime() - ms).toISOString()`; `none` where that throws. -/
  before : τ → Nat → Option τ
  /-- `new Date(Date.parse(text)).toISOString()`; `none` where `Date.parse` is not finite. -/
  parse : String → Option τ
  /-- `Math.abs(a.getTime() - b.getTime()) <= ms`. -/
  within : Nat → τ → τ → Bool
  /-- `t.toISOString()`. -/
  text : τ → String

/-- The number a text of decimal digits denotes. -/
def digits? (s : String) : Option Nat :=
  if s.toList.all Char.isDigit && !s.isEmpty then
    some (s.toList.foldl (fun n c => 10 * n + (c.toNat - '0'.toNat)) 0)
  else none

/-- A clock that counts milliseconds, for runs on concrete inputs. -/
instance : Timestamp Nat where
  getTime t := t
  after t ms := some (t + ms)
  before t ms := if ms ≤ t then some (t - ms) else none
  parse := digits?
  within ms a b := (a - b) + (b - a) ≤ ms
  text := toString

/-- `new Date(now.getTime() + ms).toISOString()`, throwing where the date is out of
range. -/
def laterThan {τ : Type} [Timestamp τ] (now : τ) (ms : Nat) : Except JsError τ :=
  match Timestamp.after now ms with
  | some t => .ok t
  | none => .error rangeError

/-- `new Date(now.getTime() - ms).toISOString()`. -/
def earlierThan {τ : Type} [Timestamp τ] (now : τ) (ms : Nat) : Except JsError τ :=
  match Timestamp.before now ms with
  | some t => .ok t
  | none => .error rangeError

end AppPort
