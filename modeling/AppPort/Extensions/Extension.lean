import Mathlib.Data.List.Infix
import AppPort.Authority.Gateway

/-!
# Management extensions

An extension is a declaration: an id, the capabilities it adds to the gateway's
manifest, and the pages it adds to the packaged UI. It is checked once, field by
field, and what is kept is the checked copy. Names are kept apart by namespaces: an
extension's id is the first segment of its capability names and of its routes.
-/

namespace AppPort

/-! ## The built-in surfaces -/

/-- The `id` and the `route` of every packaged page (`SURFACES`). -/
def SURFACES : List (String × String) := [
  ("overview", "/services"), ("api-keys", "/api-keys"), ("webhooks", "/webhooks"),
  ("jobs", "/jobs"), ("schedules", "/schedules"), ("notifications", "/notifications"),
  ("files", "/files"), ("configuration", "/configuration"), ("intelligence", "/intelligence"),
  ("secrets", "/secrets")]

def RESERVED_IDS : List String := ["overview", "services", "api-keys", "webhooks", "jobs",
  "schedules", "notifications", "files", "configuration", "intelligence", "secrets", "extensions",
  "v1", "_appport"]

/-- `name.split('.')[0]`. -/
def firstSegment (name : String) : String := String.ofList (name.toList.takeWhile (· ≠ '.'))

def BUILT_IN_NAMESPACES : List String := ENTRIES.map fun capability => firstSegment capability.name

def BUILT_IN_RESOURCES : List String := ENTRIES.map ServiceCapability.resource

/-! ## Declarations -/

/-- One operation an extension performs. -/
structure ServicesExtensionCapability where
  name : String
  operation : String
  effect : ServiceEffect
  resource : String
  deriving DecidableEq, Repr

/-- One management page an extension contributes. -/
structure ServicesExtensionPage where
  id : String
  title : String
  route : String
  order : Int
  description : String
  capabilities : List String
  script : String
  deriving DecidableEq, Repr

/-- An extension whose declaration was checked. -/
structure ServicesExtension where
  id : String
  capabilities : List ServicesExtensionCapability
  pages : List ServicesExtensionPage
  /-- It mounts JSON routes. -/
  routes : Bool
  deriving DecidableEq, Repr

/-- `routes`, as far as its type is looked at. -/
inductive RoutesField where
  | undefined
  | function
  | other
  deriving DecidableEq, Repr

/-- An extension as its author wrote it: an object, and its one function. -/
structure ExtensionInput where
  fields : JsValue
  routes : RoutesField := .undefined

/-- The fields of a capability, copied. -/
structure CapabilityFields where
  name : JsValue
  operation : JsValue
  effect : JsValue
  resource : JsValue

/-- The fields of a page, copied. -/
structure PageFields where
  id : JsValue
  title : JsValue
  route : JsValue
  order : JsValue
  description : JsValue
  capabilities : List JsValue
  script : JsValue

/-- An extension's fields, each read once. -/
structure ExtensionSnapshot where
  id : JsValue
  capabilities : List CapabilityFields
  pages : List PageFields
  routes : RoutesField

/-! ## Grammars -/

def isLowerLetter (c : Char) : Bool := 'a' ≤ c && c ≤ 'z'

/-- `[a-z0-9-]`. -/
def isIdChar (c : Char) : Bool := isLowerLetter c || c.isDigit || c == '-'

/-- `ID`: `[a-z][a-z0-9-]{1,30}`. -/
def isExtensionId (text : String) : Bool :=
  match text.toList with
  | [] => false
  | first :: rest =>
    isLowerLetter first && rest.all isIdChar && decide (1 ≤ rest.length) && decide (rest.length ≤ 30)

/-- `SEGMENT`: `[a-z][a-z0-9_]*`. -/
def isSegment : List Char → Bool
  | [] => false
  | first :: rest => isLowerLetter first && rest.all fun c => isLowerLetter c || c.isDigit || c == '_'

/-- `(\/[a-z0-9-]+)+`. -/
def isPageRoute (route : String) : Bool :=
  match route.toList with
  | '/' :: rest => (rest.splitOn '/').all fun part => !part.isEmpty && part.all isIdChar
  | _ => false

def MAX_SCRIPT : Nat := 256 * 1024

/-- The text occurs, whatever the case of its letters. -/
def occursAnyCase (text part : String) : Bool :=
  (text.toList.map lowerAscii).tails.any fun rest => part.toList.isPrefixOf rest

/-- `UNSAFE_SCRIPT`. -/
def isUnsafeScript (script : String) : Bool :=
  ["</script", "<!--", "<script"].any (occursAnyCase script)

/-! ## Checking one extension -/

/-- `fail`: a `ServicesExtensionError` about the extension. -/
def failExtension {α : Type} (label message : String) : Except String α :=
  .error ("Extension \"" ++ label ++ "\": " ++ message)

/-- `typeof value === 'object'`, and not `null`. -/
def JsValue.isObject : JsValue → Bool
  | .obj _ | .arr _ => true
  | _ => false

/-- The items of an optional array. -/
def declaredItems (label : String) (field : String) : JsValue → Except String (List JsValue)
  | .undefined => .ok []
  | .arr items => .ok items
  | _ => failExtension label (field ++ " must be an array")

def copyCapability (label : String) (capability : JsValue) : Except String CapabilityFields :=
  if capability.isObject then
    .ok ⟨capability.prop "name", capability.prop "operation", capability.prop "effect",
      capability.prop "resource"⟩
  else failExtension label "every capability must be an object"

def copyPage (label : String) (page : JsValue) : Except String PageFields :=
  if page.isObject then
    match page.prop "capabilities" with
    | .arr capabilities =>
      .ok ⟨page.prop "id", page.prop "title", page.prop "route", page.prop "order",
        page.prop "description", capabilities, page.prop "script"⟩
    | _ => failExtension label
      ("page \"" ++ (page.prop "id").toText ++ "\" must declare the capabilities it drives")
  else failExtension label "every page must be an object"

/-- `snapshot`: what is checked is what is kept. -/
def snapshot (label : String) (extension : ExtensionInput) : Except String ExtensionSnapshot :=
  if extension.fields.isObject then do
    let capabilities ← declaredItems label "capabilities" (extension.fields.prop "capabilities")
    let pages ← declaredItems label "pages" (extension.fields.prop "pages")
    let copiedCapabilities ← capabilities.mapM (copyCapability label)
    let copiedPages ← pages.mapM (copyPage label)
    pure ⟨extension.fields.prop "id", copiedCapabilities, copiedPages, extension.routes⟩
  else failExtension label "an extension must be an object"

/-- A declared effect. -/
def effectOf (effect : JsValue) : Option ServiceEffect :=
  if effect.isText "observation" then some .observation
  else if effect.isText "consequential" then some .consequential
  else none

/-- A string with characters in it. -/
def nonEmptyText (value : JsValue) : Option String := value.text?.filter (· ≠ "")

/-- A string that is not blank. -/
def nonBlankText (value : JsValue) : Option String := value.text?.filter fun s => !isBlank s

/-- One round of the loop over the capabilities. -/
def checkCapability (id : String) (names : List String) (capability : CapabilityFields) :
    Except String ServicesExtensionCapability :=
  let label := "capability \"" ++ capability.name.toText ++ "\""
  match capability.name.text?.filter fun name => hasPrefix name (id ++ ".") with
  | none => failExtension id (label ++ " must be named \"" ++ id ++ ".<name>\"")
  | some name =>
    if ((name.toList.drop (id.toList.length + 1)).splitOn '.').all isSegment = false then
      failExtension id (label ++ " has an invalid name")
    else if (getServiceCapability name).isSome then
      failExtension id (label ++ " is a built-in capability")
    else if name ∈ names then failExtension id (label ++ " is declared twice")
    else match effectOf capability.effect with
    | none => failExtension id (label ++ " needs an effect")
    | some effect =>
      match nonEmptyText capability.operation with
      | none => failExtension id (label ++ " needs an operation")
      | some operation =>
        match capability.resource.text?.filter fun resource => isSegment resource.toList with
        | none => failExtension id (label ++ " needs a resource type")
        | some resource =>
          if resource ∈ BUILT_IN_RESOURCES then
            failExtension id (label ++ " may not use the built-in resource type \"" ++ resource ++
              "\"")
          else .ok ⟨name, operation, effect, resource⟩

/-- The loop over the capabilities; `names` are those already read. -/
def checkCapabilities (id : String) (names : List String) :
    List CapabilityFields → Except String (List ServicesExtensionCapability)
  | [] => .ok []
  | capability :: rest => do
    let checked ← checkCapability id names capability
    let others ← checkCapabilities id (checked.name :: names) rest
    pure (checked :: others)

/-- The capabilities a page drives: each one is declared. -/
def drivenCapabilities (id label : String) (names : List String) :
    List JsValue → Except String (List String)
  | [] => .ok []
  | name :: rest =>
    match name.text?.filter (· ∈ names) with
    | none => failExtension id
      (label ++ " uses \"" ++ name.toText ++ "\", which the extension does not declare")
    | some name => do
      let others ← drivenCapabilities id label names rest
      pure (name :: others)

/-- A page's renderer. -/
def checkScript (id label : String) (script : JsValue) : Except String String :=
  match (nonBlankText script).filter fun script => jsLength script ≤ MAX_SCRIPT with
  | none => failExtension id
    (label ++ " needs a renderer script under " ++ toString MAX_SCRIPT ++ " characters")
  | some script =>
    if isUnsafeScript script then
      failExtension id (label ++ " script may not contain \"</script\", \"<script\" or \"<!--\"")
    else .ok script

/-- One round of the loop over the pages. -/
def checkPage (id : String) (names pageIds routes : List String) (page : PageFields) :
    Except String ServicesExtensionPage :=
  let label := "page \"" ++ page.id.toText ++ "\""
  match page.id.text?.filter fun pageId =>
      (pageId == id || hasPrefix pageId (id ++ "-")) && isExtensionId pageId with
  | none => failExtension id (label ++ " must be \"" ++ id ++ "\" or \"" ++ id ++ "-<name>\"")
  | some pageId =>
    if pageId ∈ RESERVED_IDS then failExtension id (label ++ " is a built-in page id")
    else if pageId ∈ pageIds then failExtension id (label ++ " is declared twice")
    else match page.route.text?.filter fun route =>
        (route == "/" ++ id || hasPrefix route ("/" ++ id ++ "/")) && isPageRoute route with
    | none => failExtension id (label ++ " route must be /" ++ id ++ " or under it")
    | some route =>
      if route ∈ routes then
        failExtension id (label ++ " route " ++ route ++ " is used by another page")
      else match nonBlankText page.title with
      | none => failExtension id (label ++ " needs a title")
      | some title =>
        match nonBlankText page.description with
        | none => failExtension id (label ++ " needs a description")
        | some description =>
          -- Numbers that are not finite have no `JsValue`.
          match page.order with
          | .num order =>
            if page.capabilities.isEmpty then
              failExtension id (label ++ " must declare the capabilities it drives")
            else do
              let capabilities ← drivenCapabilities id label names page.capabilities
              let script ← checkScript id label page.script
              pure ⟨pageId, title, route, order, description, capabilities, script⟩
          | _ => failExtension id (label ++ " needs an order")

/-- The loop over the pages; `pageIds` and `routes` are those already read. -/
def checkPages (id : String) (names pageIds routes : List String) :
    List PageFields → Except String (List ServicesExtensionPage)
  | [] => .ok []
  | page :: rest => do
    let checked ← checkPage id names pageIds routes page
    let others ← checkPages id names (checked.id :: pageIds) (checked.route :: routes) rest
    pure (checked :: others)

/-- `defineServicesExtension`: the checked copy, or the first problem. -/
def defineServicesExtension (input : ExtensionInput) : Except String ServicesExtension := do
  let extension ← snapshot "unknown" input
  match extension.id.text?.filter isExtensionId with
  | none => failExtension extension.id.toText "id must match [a-z][a-z0-9-]\x7b1,30\x7d"
  | some id =>
    if id ∈ RESERVED_IDS ∨ id ∈ BUILT_IN_NAMESPACES then
      failExtension id "id is reserved by AppPort Services"
    else
      let capabilities ← checkCapabilities id [] extension.capabilities
      let pages ← checkPages id (capabilities.map ServicesExtensionCapability.name) [] []
        extension.pages
      if extension.routes = .other then failExtension id "routes must be a function"
      else pure ⟨id, capabilities, pages, decide (extension.routes = .function)⟩

/-! ## Checking a set of extensions -/

/-- The inner loop: the pages of one extension join those already taken. -/
def claimPages (pages routes : List String) :
    List ServicesExtensionPage → Except String (List String × List String)
  | [] => .ok (pages, routes)
  | page :: rest =>
    if page.id ∈ pages then .error ("Page \"" ++ page.id ++ "\" is contributed twice")
    else if page.route ∈ routes then
      .error ("Page route " ++ page.route ++ " is contributed twice")
    else claimPages (page.id :: pages) (page.route :: routes) rest

/-- The outer loop: ids, page ids and routes are unique. -/
def checkTogether (ids pages routes : List String) : List ServicesExtension → Except String Unit
  | [] => .ok ()
  | extension :: rest =>
    if extension.id ∈ ids then .error ("Extension \"" ++ extension.id ++ "\" is registered twice")
    else do
      let claimed ← claimPages pages routes extension.pages
      checkTogether (extension.id :: ids) claimed.1 claimed.2 rest

/-- `defineServicesExtensions`. -/
def defineServicesExtensions (extensions : List ExtensionInput) :
    Except String (List ServicesExtension) := do
  let defined ← extensions.mapM defineServicesExtension
  checkTogether [] [] [] defined
  pure defined

/-- `extensionCapabilities`: the gateway capabilities the declarations become. -/
def extensionCapabilities (extension : ServicesExtension) : List ServiceCapability :=
  extension.capabilities.map fun capability =>
    { name := capability.name, version := 1, service := "extension:" ++ extension.id,
      operation := capability.operation, effect := capability.effect, invocable := false,
      resource := capability.resource }

end AppPort
