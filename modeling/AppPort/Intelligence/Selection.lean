import AppPort.Authority.Destination
import AppPort.Configuration.Service
import AppPort.Lib.Decimal
import AppPort.Lib.Utf16

/-!
# Intelligence selections

The catalog of providers, and the selection of one: what `set` accepts, the text it is
stored as, and what that text is read as again. The parser of URLs is the platform's.
-/

namespace AppPort

open Effects

/-! ## The catalog -/

inductive IntelligenceProtocol where
  | openai
  | anthropic
  | openaiCompatible
  deriving DecidableEq, Repr

inductive CredentialRequirement where
  | required
  | optional
  | none
  deriving DecidableEq, Repr

/-- Whether the model must be listed, or any identifier is accepted. -/
inductive ModelSelection where
  | catalog
  | free
  deriving DecidableEq, Repr

structure IntelligenceModel where
  id : String
  displayName : String
  deriving DecidableEq, Repr

structure IntelligenceEndpoint where
  id : String
  displayName : String
  url : String
  deriving DecidableEq, Repr

structure IntelligenceProvider where
  id : String
  displayName : String
  protocol : IntelligenceProtocol
  models : List IntelligenceModel
  modelSelection : ModelSelection
  /-- The first is the default; none where the endpoint is always the user's. -/
  endpoints : List IntelligenceEndpoint
  customEndpoint : Bool
  credential : CredentialRequirement
  deriving DecidableEq, Repr

def CUSTOM_PROVIDER_ID : String := "custom"

def INTELLIGENCE_CATALOG : List IntelligenceProvider := [
  { id := "openai", displayName := "OpenAI", protocol := .openai, modelSelection := .free
    credential := .required, customEndpoint := false
    models := [⟨"gpt-4o", "GPT-4o"⟩, ⟨"gpt-4o-mini", "GPT-4o mini"⟩]
    endpoints := [⟨"default", "Default", "https://api.openai.com/v1"⟩] },
  { id := "anthropic", displayName := "Anthropic", protocol := .anthropic, modelSelection := .catalog
    credential := .required, customEndpoint := false
    models := [⟨"claude-fable-5-1", "Claude Fable 5.1"⟩, ⟨"claude-opus-5-5", "Claude Opus 5.5"⟩,
      ⟨"claude-sonnet-5-5", "Claude Sonnet 5.5"⟩,
      ⟨"claude-haiku-4-5-20251001", "Claude Haiku 4.5"⟩]
    endpoints := [⟨"default", "Default", "https://api.anthropic.com"⟩] },
  { id := "opencode", displayName := "OpenCode", protocol := .openaiCompatible
    modelSelection := .free, credential := .required, customEndpoint := true, models := []
    endpoints := [⟨"default", "Default", "https://opencode.ai/zen/v1"⟩] },
  { id := "ollama", displayName := "Ollama (local)", protocol := .openaiCompatible
    modelSelection := .free, credential := .optional, customEndpoint := true, models := []
    endpoints := [⟨"default", "Local", "http://localhost:11434/v1"⟩] },
  { id := CUSTOM_PROVIDER_ID, displayName := "Custom (OpenAI-compatible)"
    protocol := .openaiCompatible, modelSelection := .free, credential := .optional
    customEndpoint := true, models := [], endpoints := [] }]

/-- `getIntelligenceProvider`, of a text. -/
def getIntelligenceProvider (id : String) : Option IntelligenceProvider :=
  INTELLIGENCE_CATALOG.find? fun entry => entry.id == id

/-- `findIntelligenceModel`. -/
def findIntelligenceModel (providerId modelId : String) : Option IntelligenceModel :=
  (getIntelligenceProvider providerId).bind fun provider =>
    provider.models.find? fun model => model.id == modelId

theorem getIntelligenceProvider_id {id : String} {provider : IntelligenceProvider}
    (h : getIntelligenceProvider id = some provider) : provider.id = id := by
  simpa using List.find?_some h

/-! ## Endpoints -/

/-- `resolveEndpoint`: a stored endpoint is the id of a known one, absent, or a URL. -/
def resolveEndpoint (provider : IntelligenceProvider) (stored : Option String) : String :=
  match keepPresent stored with
  | none => ((provider.endpoints.head?).map IntelligenceEndpoint.url).getD ""
  | some stored =>
    if stored = "default" then ((provider.endpoints.head?).map IntelligenceEndpoint.url).getD ""
    else ((provider.endpoints.find? fun endpoint => endpoint.id == stored).map
      IntelligenceEndpoint.url).getD stored

/-- What is read of the `URL` of an endpoint. -/
structure EndpointUrl extends URL where
  search : String := ""
  hash : String := ""
  deriving DecidableEq, Repr

/-- `hostname.replace(/^\[|\]$/g, '').toLowerCase()`, of an ASCII text. -/
def endpointHost (hostname : String) : String :=
  let chars := hostname.toList
  let opened := if chars.head? = some '[' then chars.drop 1 else chars
  let closed := if opened.getLast? = some ']' then opened.dropLast else opened
  String.ofList (lowerText closed)

/-- `isLocalHost`. -/
def isLocalHost (hostname : String) : Bool :=
  let host := endpointHost hostname
  if host == "localhost" || hasSuffix host ".localhost" || hasSuffix host ".local" ||
      hasSuffix host ".internal" || host == "::1" then true
  else
    match IpAddress.quad host.toList with
    | some address =>
      let a := address / 16777216
      let b := address / 65536 % 256
      a == 127 || a == 10 || (a == 172 && 16 ≤ b && b ≤ 31) || (a == 192 && b == 168)
    | none => false

/-- `value.replace(/\/+$/, '')`. -/
def stripSlashes (value : String) : String :=
  String.ofList (value.toList.reverse.dropWhile (· == '/')).reverse

/-- `validateEndpointUrl`; `newUrl` is `new URL(value)`, `none` where that throws. -/
def validateEndpointUrl (newUrl : String → Option EndpointUrl) (value : String) :
    Except JsError String :=
  match newUrl value with
  | none => .error (.validation "Endpoint must be a valid URL")
  | some url =>
    if url.protocol ≠ "https:" ∧ url.protocol ≠ "http:" then
      .error (.validation "Endpoint must use http or https")
    else if url.username ≠ "" ∨ url.password ≠ "" then
      .error (.validation "Endpoint must not embed credentials")
    else if url.search ≠ "" ∨ url.hash ≠ "" then
      .error (.validation "Endpoint must not include a query string or fragment")
    else if url.protocol = "http:" ∧ isLocalHost url.hostname = false then
      .error (.validation
        "Plain http endpoints are allowed only for local or private-network hosts")
    else .ok (stripSlashes value)

/-! ## Selections -/

/-- The durable part of the configuration. -/
structure IntelligenceSelection where
  provider : String
  model : String
  /-- Absent means the provider's default endpoint. -/
  endpoint : Option String := none
  deriving DecidableEq, Repr

/-- `IntelligenceWriteInput`, of which `environment` may be absent. -/
structure IntelligenceWriteInput where
  provider : JsValue
  model : JsValue
  endpoint : JsValue := .undefined
  credentialRef : JsValue := .undefined
  environment : JsValue := .undefined
  tenantId : Option String := none
  applicationId : Option String := none
  /-- The object the caller passed. -/
  raw : JsValue := .undefined

/-- `validateSelection`, of the endpoint. -/
def validateEndpoint (newUrl : String → Option EndpointUrl) (provider : IntelligenceProvider)
    (endpoint : JsValue) : Except JsError (Option String) :=
  let byDefault : Except JsError (Option String) :=
    if provider.endpoints.isEmpty then
      .error (.validation ("Provider " ++ provider.id ++ " requires an endpoint"))
    else .ok none
  match endpoint with
  | .undefined | .null => byDefault
  | .str endpoint =>
    let requested := jsTrim endpoint
    if requested = "" ∨ requested = "default" then byDefault
    else
      match provider.endpoints.find? fun known => known.id == requested with
      | some known => .ok (if known.id = "default" then none else some known.id)
      | none =>
        if provider.customEndpoint = false then
          .error (.validation ("Provider " ++ provider.id ++ " does not accept a custom endpoint"))
        else (validateEndpointUrl newUrl requested).map some
  | _ => .error (.validation "Endpoint must be a string")

/-- `/[\s\u0000-\u001f]/`. -/
def isModelBreak (c : Char) : Bool := isJsWhitespace c || c.toNat ≤ 0x1f

/-- `validateSelection`. -/
def validateSelection (newUrl : String → Option EndpointUrl) (input : IntelligenceWriteInput) :
    Except JsError IntelligenceSelection :=
  match input.provider.text?.bind getIntelligenceProvider with
  | none => .error (.validation ("Unknown provider \"" ++ input.provider.toText ++
      "\"; use \"custom\" for an OpenAI-compatible provider"))
  | some provider =>
    let model := jsTrim (input.model.text?.getD "")
    if model = "" then .error (.validation "Model is required")
    else if 200 < jsLength model ∨ model.toList.any isModelBreak then
      .error (.validation "Model must be a provider-defined identifier without whitespace")
    else if provider.modelSelection = .catalog ∧ findIntelligenceModel provider.id model = none then
      .error (.validation ("Model \"" ++ model ++ "\" is not available for provider " ++ provider.id))
    else (validateEndpoint newUrl provider input.endpoint).map fun endpoint =>
      { provider := provider.id, model, endpoint }

def INTELLIGENCE_SELECTION_NAME : String := "INTELLIGENCE_CONFIG"

def INTELLIGENCE_CREDENTIAL_NAME : String := "INTELLIGENCE_CREDENTIAL"

/-- The properties of a selection, in the order they are created. -/
def IntelligenceSelection.json (selection : IntelligenceSelection) : Json Decimal :=
  .obj ([(jsUnits "provider", .str (jsUnits selection.provider)),
    (jsUnits "model", .str (jsUnits selection.model))] ++
    selection.endpoint.toList.map fun endpoint => (jsUnits "endpoint", .str (jsUnits endpoint)))

/-- `JSON.stringify(selection)`. -/
def IntelligenceSelection.text (selection : IntelligenceSelection) : String :=
  String.ofList (ofUtf16 selection.json.stringify)

/-- `parsed.key`, of what `JSON.parse` answers. -/
def jsonProp (parsed : Json Decimal) (key : String) : Option (Json Decimal) :=
  match parsed with
  | .obj entries => (entries.find? fun e => e.1 == jsUnits key).map Prod.snd
  | _ => none

/-- `parseSelection`. -/
def parseSelection (value : String) : Except JsError IntelligenceSelection :=
  let invalid : Except JsError IntelligenceSelection := .error (.validation
    (INTELLIGENCE_SELECTION_NAME ++ " does not contain a valid intelligence selection"))
  match parseJson (jsUnits value) with
  | none => invalid
  | some parsed =>
    match jsonProp parsed "provider", jsonProp parsed "model", jsonProp parsed "endpoint" with
    | some (.str provider), some (.str model), none =>
      .ok { provider := String.ofList (ofUtf16 provider), model := String.ofList (ofUtf16 model) }
    | some (.str provider), some (.str model), some (.str endpoint) =>
      .ok { provider := String.ofList (ofUtf16 provider), model := String.ofList (ofUtf16 model)
            endpoint := keepPresent (some (String.ofList (ofUtf16 endpoint))) }
    | _, _, _ => invalid

/-! ## What is stored is read back -/

theorem jsUnits_utf16 (s : String) : jsUnits s = utf16 s.toList := rfl

theorem ofList_ofUtf16 (s : String) : String.ofList (ofUtf16 (jsUnits s)) = s := by
  rw [jsUnits_utf16, ofUtf16_utf16, String.ofList_toList]

theorem isUtf16_jsUnits (s : String) : IsUtf16 (jsUnits s) := ⟨s.toList, rfl⟩

theorem IntelligenceSelection.json_textual (selection : IntelligenceSelection) :
    selection.json.Textual := by
  obtain ⟨provider, model, endpoint⟩ := selection
  cases endpoint with
  | none =>
    refine .obj (fun e he => ?_) fun e he => ?_
    all_goals
      simp only [Option.toList_none, List.map_nil, List.append_nil, List.mem_cons,
        List.not_mem_nil, or_false] at he
      rcases he with rfl | rfl
    · exact isUtf16_jsUnits _
    · exact isUtf16_jsUnits _
    · exact .str (isUtf16_jsUnits _)
    · exact .str (isUtf16_jsUnits _)
  | some endpoint =>
    refine .obj (fun e he => ?_) fun e he => ?_
    all_goals
      simp only [Option.toList_some, List.map_cons, List.map_nil, List.cons_append, List.nil_append,
        List.mem_cons, List.not_mem_nil, or_false] at he
      rcases he with rfl | rfl | rfl
    · exact isUtf16_jsUnits _
    · exact isUtf16_jsUnits _
    · exact isUtf16_jsUnits _
    · exact .str (isUtf16_jsUnits _)
    · exact .str (isUtf16_jsUnits _)
    · exact .str (isUtf16_jsUnits _)

/-- The properties of a selection are named by no array index. -/
theorem selection_keys : (["provider", "model", "endpoint"].map jsUnits).Nodup ∧
    ∀ key ∈ ["provider", "model", "endpoint"], arrayIndex (jsUnits key) = none := by
  decide

theorem IntelligenceSelection.json_wellFormed (selection : IntelligenceSelection) :
    selection.json.WellFormed := by
  obtain ⟨provider, model, endpoint⟩ := selection
  obtain ⟨hnodup, hindex⟩ := selection_keys
  have hgoes : ∀ key ∈ ["provider", "model", "endpoint"], ∀ key', goesBefore (jsUnits key) key' = false := by
    intro key hkey key'
    unfold goesBefore
    rw [hindex key hkey]
  cases endpoint with
  | none =>
    refine .obj ⟨?_, ?_⟩ fun e he => ?_
    · exact hnodup.sublist (by simp)
    · refine List.Pairwise.cons (fun e he => ?_) (List.pairwise_singleton _ _)
      rw [List.mem_singleton.mp he]
      exact hgoes "model" (by simp) _
    · simp only [Option.toList_none, List.map_nil, List.append_nil, List.mem_cons,
        List.not_mem_nil, or_false] at he
      rcases he with rfl | rfl <;> exact .str _
  | some endpoint =>
    refine .obj ⟨hnodup, ?_⟩ fun e he => ?_
    · refine List.Pairwise.cons (fun e he => ?_) (List.Pairwise.cons (fun e he => ?_)
        (List.pairwise_singleton _ _))
      · rcases List.mem_cons.mp he with rfl | he
        · exact hgoes "model" (by simp) _
        · rw [List.mem_singleton.mp he]
          exact hgoes "endpoint" (by simp) _
      · rw [List.mem_singleton.mp he]
        exact hgoes "endpoint" (by simp) _
    · simp only [Option.toList_some, List.map_cons, List.map_nil, List.cons_append,
        List.nil_append, List.mem_cons, List.not_mem_nil, or_false] at he
      rcases he with rfl | rfl | rfl <;> exact .str _

/-- The text of a selection parses to its properties. -/
theorem parseJson_selection (selection : IntelligenceSelection) :
    parseJson (jsUnits selection.text) = some selection.json := by
  have hread : jsUnits selection.text = selection.json.stringify := by
    rw [jsUnits_utf16, IntelligenceSelection.text, String.toList_ofList]
    exact (Json.isUtf16_stringify _ selection.json_textual).read
  rw [hread]
  exact parseJson_text readsBack_escapeUnit selection.json_wellFormed

/-- **A stored selection is read as it was written.** -/
theorem parseSelection_text {selection : IntelligenceSelection} (h : selection.endpoint ≠ some "") :
    parseSelection selection.text = .ok selection := by
  obtain ⟨provider, model, endpoint⟩ := selection
  obtain ⟨hprovider, hmodel, hendpoint⟩ : jsUnits "model" ≠ jsUnits "provider" ∧
      jsUnits "endpoint" ≠ jsUnits "provider" ∧ jsUnits "endpoint" ≠ jsUnits "model" := by decide
  unfold parseSelection
  rw [parseJson_selection]
  cases endpoint with
  | none =>
    simp [jsonProp, IntelligenceSelection.json, hmodel.symm, hendpoint.symm, hprovider.symm,
      ofList_ofUtf16]
  | some endpoint =>
    have hpresent : keepPresent (some endpoint) = some endpoint := by
      have hne : endpoint ≠ "" := fun he => h (congrArg some he)
      simp [keepPresent, present, hne]
    simp [jsonProp, IntelligenceSelection.json, hmodel.symm, hendpoint.symm, hprovider.symm,
      ofList_ofUtf16, hpresent]

/-! ## What is accepted -/

/-- What an endpoint of the user's own has passed. -/
structure EndpointUrl.Safe (url : EndpointUrl) : Prop where
  protocol : url.protocol = "https:" ∨ url.protocol = "http:" ∧ isLocalHost url.hostname = true
  username : url.username = ""
  password : url.password = ""
  search : url.search = ""
  hash : url.hash = ""

theorem validateEndpointUrl_ok {newUrl : String → Option EndpointUrl} {value endpoint : String}
    (h : validateEndpointUrl newUrl value = .ok endpoint) :
    ∃ url, newUrl value = some url ∧ url.Safe ∧ endpoint = stripSlashes value := by
  unfold validateEndpointUrl at h
  split at h
  · cases h
  next url hurl =>
  split at h
  · cases h
  next hprotocol =>
  split at h
  · cases h
  next huser =>
  split at h
  · cases h
  next hquery =>
  split at h
  · cases h
  next hlocal =>
  obtain rfl := Except.ok.inj h
  simp only [not_or, not_and, not_not, Bool.not_eq_false] at hprotocol huser hquery hlocal
  refine ⟨url, hurl, ⟨?_, huser.1, huser.2, hquery.1, hquery.2⟩, rfl⟩
  by_cases hhttps : url.protocol = "https:"
  · exact .inl hhttps
  · have hhttp := hprotocol hhttps
    exact .inr ⟨hhttp, hlocal hhttp⟩

/-- The endpoints that are accepted for a provider. -/
inductive EndpointAccepted (newUrl : String → Option EndpointUrl) (provider : IntelligenceProvider) :
    Option String → Prop where
  | default (h : provider.endpoints ≠ []) : EndpointAccepted newUrl provider none
  | known {endpoint : IntelligenceEndpoint} (hid : endpoint.id ≠ "default") (hpresent : endpoint.id ≠ "")
      (h : provider.endpoints.find? (fun known => known.id == endpoint.id) = some endpoint) :
      EndpointAccepted newUrl provider (some endpoint.id)
  | custom {requested : String} {url : EndpointUrl} (hcustom : provider.customEndpoint = true)
      (hurl : newUrl requested = some url) (hsafe : url.Safe) :
      EndpointAccepted newUrl provider (some (stripSlashes requested))

theorem validateEndpoint_ok {newUrl : String → Option EndpointUrl} {provider : IntelligenceProvider}
    {input : JsValue} {endpoint : Option String}
    (h : validateEndpoint newUrl provider input = .ok endpoint) :
    EndpointAccepted newUrl provider endpoint := by
  have hdefault : ∀ {e : Except JsError (Option String)},
      e = (if provider.endpoints.isEmpty then
        .error (.validation ("Provider " ++ provider.id ++ " requires an endpoint")) else .ok none) →
      e = .ok endpoint → EndpointAccepted newUrl provider endpoint := by
    rintro e rfl h
    split at h
    · cases h
    · next hempty =>
      obtain rfl := Except.ok.inj h
      exact .default (by simpa using hempty)
  unfold validateEndpoint at h
  dsimp only at h
  split at h
  · exact hdefault rfl h
  · exact hdefault rfl h
  · next text =>
    split at h
    · exact hdefault rfl h
    next hrequested =>
    rw [not_or] at hrequested
    split at h
    · next known hknown =>
      have hid : known.id = jsTrim text := by simpa using List.find?_some hknown
      rw [← hid] at hrequested hknown
      rw [if_neg hrequested.2] at h
      obtain rfl := Except.ok.inj h
      exact .known hrequested.2 hrequested.1 hknown
    · split at h
      · cases h
      next hcustom =>
      cases hvalid : validateEndpointUrl newUrl (jsTrim text) with
      | error e =>
        rw [hvalid] at h
        cases h
      | ok accepted =>
        rw [hvalid] at h
        obtain rfl := Except.ok.inj h
        obtain ⟨url, hurl, hsafe, rfl⟩ := validateEndpointUrl_ok hvalid
        exact .custom (by simpa using hcustom) hurl hsafe
  · cases h

/-- A selection that `set` may store. -/
structure IntelligenceSelection.Accepted (newUrl : String → Option EndpointUrl)
    (selection : IntelligenceSelection) (provider : IntelligenceProvider) : Prop where
  found : getIntelligenceProvider selection.provider = some provider
  model : selection.model ≠ "" ∧ jsLength selection.model ≤ 200 ∧
    ∀ c ∈ selection.model.toList, isModelBreak c = false
  listed : provider.modelSelection = .catalog →
    ∃ model ∈ provider.models, model.id = selection.model
  endpoint : EndpointAccepted newUrl provider selection.endpoint

theorem findIntelligenceModel_mem {provider : IntelligenceProvider} {modelId : String}
    (hprovider : getIntelligenceProvider provider.id = some provider)
    (h : findIntelligenceModel provider.id modelId ≠ none) :
    ∃ model ∈ provider.models, model.id = modelId := by
  obtain ⟨model, hmodel⟩ := Option.ne_none_iff_exists'.mp h
  unfold findIntelligenceModel at hmodel
  rw [hprovider, Option.bind_some] at hmodel
  exact ⟨model, List.mem_of_find?_eq_some hmodel, by simpa using List.find?_some hmodel⟩

theorem validateSelection_ok {newUrl : String → Option EndpointUrl} {input : IntelligenceWriteInput}
    {selection : IntelligenceSelection} (h : validateSelection newUrl input = .ok selection) :
    ∃ provider, selection.Accepted newUrl provider := by
  unfold validateSelection at h
  split at h
  · cases h
  next provider hprovider =>
  obtain ⟨id, -, hfound⟩ := Option.bind_eq_some_iff.mp hprovider
  have hid := getIntelligenceProvider_id hfound
  dsimp only at h
  split at h
  · cases h
  next hpresent =>
  split at h
  · cases h
  next hformed =>
  split at h
  · cases h
  next hlisted =>
  cases hendpoint : validateEndpoint newUrl provider input.endpoint with
  | error e =>
    rw [hendpoint] at h
    cases h
  | ok endpoint =>
    rw [hendpoint] at h
    obtain rfl := Except.ok.inj h
    have hprovider : getIntelligenceProvider provider.id = some provider := by rw [hid, hfound]
    simp only [not_or, not_lt, Bool.not_eq_true, List.any_eq_false] at hformed
    refine ⟨provider, hprovider, ⟨hpresent, hformed.1, fun c hc => ?_⟩, fun hcatalog => ?_,
      validateEndpoint_ok hendpoint⟩
    · simpa using hformed.2 c hc
    · exact findIntelligenceModel_mem hprovider fun hnone => hlisted ⟨hcatalog, hnone⟩

/-- `new URL(value)` throws for a text without a scheme. -/
def ParsesAbsolute (newUrl : String → Option EndpointUrl) : Prop :=
  ∀ value url, newUrl value = some url → ':' ∈ value.toList

/-- Trailing slashes are all that is removed. -/
theorem mem_stripSlashes {value : String} {c : Char} (hc : c ≠ '/') (h : c ∈ value.toList) :
    c ∈ (stripSlashes value).toList := by
  unfold stripSlashes
  rw [String.toList_ofList, List.mem_reverse]
  rw [← List.mem_reverse] at h
  generalize value.toList.reverse = chars at h ⊢
  induction chars with
  | nil => cases h
  | cons d rest ih =>
    rw [List.dropWhile_cons]
    split
    · next hslash =>
      have hd : d = '/' := by simpa using hslash
      rcases List.mem_cons.mp h with rfl | hrest
      · exact absurd hd hc
      · exact ih hrest
    · exact h

/-- No endpoint of the catalog is known under an id with a colon. -/
theorem catalog_ids {id : String} {provider : IntelligenceProvider}
    (h : getIntelligenceProvider id = some provider) :
    ∀ endpoint ∈ provider.endpoints, ':' ∉ endpoint.id.toList := by
  have hall : ∀ provider ∈ INTELLIGENCE_CATALOG, ∀ endpoint ∈ provider.endpoints,
      endpoint.id = "default" := by decide
  intro endpoint hmem
  rw [hall provider (List.mem_of_find?_eq_some h) endpoint hmem]
  decide

/-- What an accepted endpoint is resolved to: one the catalog lists for the provider, or
the user's own, which passed every check. -/
theorem resolveEndpoint_accepted {newUrl : String → Option EndpointUrl}
    (hurl : ParsesAbsolute newUrl) {id : String} {provider : IntelligenceProvider}
    (hprovider : getIntelligenceProvider id = some provider) {endpoint : Option String}
    (h : EndpointAccepted newUrl provider endpoint) :
    endpoint ≠ some "" ∧
    ((∃ known ∈ provider.endpoints, resolveEndpoint provider endpoint = known.url) ∨
      provider.customEndpoint = true ∧ ∃ requested url, newUrl requested = some url ∧ url.Safe ∧
        resolveEndpoint provider endpoint = stripSlashes requested) := by
  cases h with
  | default hendpoints =>
    refine ⟨by simp, .inl ?_⟩
    obtain ⟨first, rest, hfirst⟩ := List.exists_cons_of_ne_nil hendpoints
    exact ⟨first, by simp [hfirst], by simp [resolveEndpoint, keepPresent, present, hfirst]⟩
  | @known known hid hpresent hfound =>
    refine ⟨by simpa using hpresent, .inl ⟨known, List.mem_of_find?_eq_some hfound, ?_⟩⟩
    simp [resolveEndpoint, keepPresent, present, hpresent, hid, hfound]
  | @custom requested url hcustom hparsed hsafe =>
    have hcolon := mem_stripSlashes (by decide) (hurl requested url hparsed)
    have hpresent : stripSlashes requested ≠ "" := by
      intro hempty
      rw [hempty] at hcolon
      cases hcolon
    have hdefault : stripSlashes requested ≠ "default" := by
      intro heq
      rw [heq] at hcolon
      revert hcolon
      decide
    have hunknown : (provider.endpoints.find? fun known => known.id == stripSlashes requested) =
        none := by
      rw [List.find?_eq_none]
      intro known hmem heq
      have hid : known.id = stripSlashes requested := by simpa using heq
      exact catalog_ids hprovider known hmem (hid ▸ hcolon)
    refine ⟨by simpa using hpresent, .inr ⟨hcustom, requested, url, hparsed, hsafe, ?_⟩⟩
    simp [resolveEndpoint, keepPresent, present, hpresent, hdefault, hunknown]

section sample

/-- A parser that knows one URL. -/
def oneUrl (value : String) : Option EndpointUrl :=
  if value = "http://localhost:8080/v1/" then some { protocol := "http:", hostname := "localhost" }
  else none

def localModel : IntelligenceWriteInput where
  provider := .str "custom"
  model := .str " qwen "
  endpoint := .str "http://localhost:8080/v1/"

end sample

end AppPort
