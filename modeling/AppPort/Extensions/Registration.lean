import Mathlib.Data.List.TakeWhile
import AppPort.Extensions.Extension

/-!
# Registered extensions

What the checks of one extension, the checks across extensions, and the gateway's own
check come to together. An extension id has no `.` and no `/`, so it is read back from a
capability name and from a route; two extensions, or an extension and the packaged
surfaces, then differ in every name because they differ in that segment.
-/

namespace AppPort

open Effects

variable {τ : Type} {α : Type}

/-! ## The gateway and the dispatcher -/

/-- `ServiceGatewayOptions`; what only effects read is left out. -/
structure ServiceGatewayOptions where
  application : String
  authorizer : Bool := false
  credentials : Bool := false
  storesCredentials : Bool := false
  authorizationTimeoutMs : Option Nat := none
  extensionCapabilities : List ServiceCapability := []

/-- The `<id>` of a service `extension:<id>`, or nothing. -/
def extensionNamespace (service : String) : String :=
  if hasPrefix service "extension:" then
    String.ofList (service.toList.drop "extension:".toList.length)
  else ""

/-- The constructor's loop; `accepted` are the capabilities already taken. -/
def acceptExtensions (accepted : List ServiceCapability) :
    List ServiceCapability → Except String (List ServiceCapability)
  | [] => .ok accepted
  | capability :: rest =>
    if (getServiceCapability capability.name).isSome ∨
        capability.name ∈ accepted.map ServiceCapability.name then
      .error ("Extension capability \"" ++ capability.name ++ "\" is already declared")
    else if extensionNamespace capability.service = "" ∨
        hasPrefix capability.name (extensionNamespace capability.service ++ ".") = false ∨
        capability.invocable = true then
      .error ("Extension capability \"" ++ capability.name ++
        "\" must come from a defined extension (extension:<id>, <id>.<name>, not invocable, " ++
        "authorization required)")
    else acceptExtensions (accepted ++ [capability]) rest

/-- The constructor of `ServiceGateway`. -/
def ServiceGateway.construct (options : ServiceGatewayOptions) : Except String ServiceGateway :=
  if isBlank options.application then .error "ServiceGateway requires an application"
  else do
    let extensions ← acceptExtensions [] options.extensionCapabilities
    pure
      { application := options.application, authorizer := options.authorizer,
        credentials := options.credentials, storesCredentials := options.storesCredentials,
        authorizationTimeoutMs :=
          options.authorizationTimeoutMs.getD DEFAULT_AUTHORIZATION_TIMEOUT_MS,
        extensionCapabilities := extensions }

/-- `invokeService`, whatever the handlers of the capabilities do. -/
def invokeService (handlers : String → JsValue → VerifiedPrincipal → Svc τ α) (capability : String)
    (input : JsValue) (principal : PrincipalInput) : Svc τ α :=
  match getServiceCapability capability with
  | none => throw (serviceError .invalidRequest
    ("Capability \"" ++ capability ++ "\" is not declared in the service capability manifest"))
  | some declared =>
    if declared.invocable = false then
      throw (serviceError .invalidRequest
        ("Capability \"" ++ capability ++ "\" is runtime-internal and cannot be invoked"))
    else do
      let verified ← requireVerifiedPrincipal principal
      match input with
      | .undefined => handlers capability (.obj []) verified
      | .obj fields => handlers capability (.obj fields) verified
      | _ => throw (serviceError .invalidRequest "Service input must be an object")

/-! ## Reading a namespace back -/

theorem isIdChar_ne_dot {c : Char} (h : isIdChar c = true) : c ≠ '.' := by
  rintro rfl
  revert h
  decide

theorem isIdChar_ne_slash {c : Char} (h : isIdChar c = true) : c ≠ '/' := by
  rintro rfl
  revert h
  decide

theorem isIdChar_of_isExtensionId {id : String} (h : isExtensionId id = true) {c : Char}
    (hc : c ∈ id.toList) : isIdChar c = true := by
  unfold isExtensionId at h
  cases hid : id.toList with
  | nil => simp [hid] at hc
  | cons first rest =>
    simp only [hid, Bool.and_eq_true] at h
    rw [hid] at hc
    rcases List.mem_cons.mp hc with rfl | hrest
    · have hlower : isLowerLetter c = true := h.1.1.1
      simp [isIdChar, hlower]
    · exact List.all_eq_true.mp h.1.1.2 c hrest

/-- The text up to a separator it does not hold. -/
theorem takeWhile_append_sep {sep : Char} {front : List Char} (h : ∀ c ∈ front, c ≠ sep)
    (rest : List Char) : (front ++ sep :: rest).takeWhile (· ≠ sep) = front := by
  rw [List.takeWhile_append_of_pos (fun c hc => by simpa using h c hc)]
  simp

theorem hasPrefix_iff {s pre : String} :
    hasPrefix s pre = true ↔ ∃ rest, s.toList = pre.toList ++ rest := by
  unfold hasPrefix
  rw [List.isPrefixOf_iff_prefix]
  constructor
  · rintro ⟨rest, h⟩
    exact ⟨rest, h.symm⟩
  · rintro ⟨rest, h⟩
    exact ⟨rest, h.symm⟩

/-- A name under an extension id has that id as its namespace. -/
theorem firstSegment_of_hasPrefix {id name : String} (hid : isExtensionId id = true)
    (h : hasPrefix name (id ++ ".") = true) : firstSegment name = id := by
  obtain ⟨rest, hname⟩ := hasPrefix_iff.mp h
  have hsplit : name.toList = id.toList ++ '.' :: rest := by simpa using hname
  unfold firstSegment
  rw [hsplit, takeWhile_append_sep
    (fun c hc => isIdChar_ne_dot (isIdChar_of_isExtensionId hid hc)), String.ofList_toList]

/-- The first part of a route. -/
def routeSegment (route : String) : String :=
  String.ofList ((route.toList.drop 1).takeWhile (· ≠ '/'))

/-- A route at or under `/<id>`. -/
theorem routeSegment_of_under {id route : String} (hid : isExtensionId id = true)
    (h : route = "/" ++ id ∨ hasPrefix route ("/" ++ id ++ "/") = true) :
    routeSegment route = id := by
  have hchars : ∀ c ∈ id.toList, c ≠ '/' :=
    fun c hc => isIdChar_ne_slash (isIdChar_of_isExtensionId hid hc)
  unfold routeSegment
  rcases h with rfl | h
  · have hall : id.toList.takeWhile (· ≠ '/') = id.toList :=
      List.takeWhile_eq_self_iff.mpr (fun c hc => by simpa using hchars c hc)
    have hdrop : ("/" ++ id).toList.drop 1 = id.toList := by simp
    rw [hdrop, hall, String.ofList_toList]
  · obtain ⟨rest, hroute⟩ := hasPrefix_iff.mp h
    have hsplit : route.toList.drop 1 = id.toList ++ '/' :: rest := by
      rw [hroute]
      simp
    rw [hsplit, takeWhile_append_sep hchars, String.ofList_toList]

/-- The route of a packaged page is under a reserved id. -/
theorem surface_reserved {surface : String × String} (h : surface ∈ SURFACES) :
    surface.1 ∈ RESERVED_IDS ∧ routeSegment surface.2 ∈ RESERVED_IDS := by
  revert surface
  decide +kernel

theorem firstSegment_mem_namespaces {capability : ServiceCapability} (h : capability ∈ ENTRIES) :
    firstSegment capability.name ∈ BUILT_IN_NAMESPACES :=
  List.mem_map_of_mem h

/-! ## What a checked extension is -/

/-- A checked capability of the extension. -/
structure ServicesExtensionCapability.Under (id : String)
    (capability : ServicesExtensionCapability) : Prop where
  named : hasPrefix capability.name (id ++ ".") = true
  fresh : getServiceCapability capability.name = none
  resource : capability.resource ∉ BUILT_IN_RESOURCES

/-- A checked page of the extension. -/
structure ServicesExtensionPage.Under (id : String) (names : List String)
    (page : ServicesExtensionPage) : Prop where
  fresh : page.id ∉ RESERVED_IDS
  route : page.route = "/" ++ id ∨ hasPrefix page.route ("/" ++ id ++ "/") = true
  driven : ∀ name ∈ page.capabilities, name ∈ names

/-- What `defineServicesExtension` returns. -/
structure ServicesExtension.Checked (extension : ServicesExtension) : Prop where
  grammar : isExtensionId extension.id = true
  unreserved : extension.id ∉ RESERVED_IDS
  ownNamespace : extension.id ∉ BUILT_IN_NAMESPACES
  capabilities : ∀ capability ∈ extension.capabilities, capability.Under extension.id
  namesApart : (extension.capabilities.map ServicesExtensionCapability.name).Nodup
  pages : ∀ page ∈ extension.pages,
    page.Under extension.id (extension.capabilities.map ServicesExtensionCapability.name)

theorem checkCapability_ok {id : String} {names : List String} {fields : CapabilityFields}
    {capability : ServicesExtensionCapability}
    (h : checkCapability id names fields = .ok capability) :
    capability.Under id ∧ capability.name ∉ names := by
  unfold checkCapability failExtension at h
  split at h
  · cases h
  · next name hname =>
    split at h
    · cases h
    split at h
    · cases h
    · next hfresh =>
      split at h
      · cases h
      · next hnew =>
        split at h
        · cases h
        · split at h
          · cases h
          · split at h
            · cases h
            · split at h
              · cases h
              · next hresource =>
                obtain rfl := Except.ok.inj h
                exact ⟨⟨(Option.filter_eq_some_iff.mp hname).2, by simpa using hfresh, hresource⟩,
                  hnew⟩

theorem checkCapabilities_ok {id : String} {fields : List CapabilityFields} {names : List String}
    {capabilities : List ServicesExtensionCapability}
    (h : checkCapabilities id names fields = .ok capabilities) :
    (∀ capability ∈ capabilities, capability.Under id ∧ capability.name ∉ names) ∧
      (capabilities.map ServicesExtensionCapability.name).Nodup := by
  induction fields generalizing names capabilities with
  | nil =>
    obtain rfl := Except.ok.inj h
    exact ⟨fun _ hc => (by cases hc), List.nodup_nil⟩
  | cons field rest ih =>
    obtain ⟨checked, hchecked, h⟩ := bind_eq_ok h
    obtain ⟨others, hothers, h⟩ := bind_eq_ok h
    obtain rfl := Except.ok.inj h
    obtain ⟨hunder, hnew⟩ := checkCapability_ok hchecked
    obtain ⟨hrest, hapart⟩ := ih hothers
    refine ⟨fun capability hmem => ?_, List.nodup_cons.mpr ⟨fun hmem => ?_, hapart⟩⟩
    · rcases List.mem_cons.mp hmem with rfl | hmem
      · exact ⟨hunder, hnew⟩
      · obtain ⟨hother, hfresh⟩ := hrest capability hmem
        exact ⟨hother, fun hin => hfresh (List.mem_cons_of_mem _ hin)⟩
    · obtain ⟨other, hother, hname⟩ := List.mem_map.mp hmem
      exact (hrest other hother).2 (by simp [hname])

theorem drivenCapabilities_ok {id label : String} {names : List String} {fields : List JsValue}
    {driven : List String} (h : drivenCapabilities id label names fields = .ok driven) :
    ∀ name ∈ driven, name ∈ names := by
  induction fields generalizing driven with
  | nil =>
    obtain rfl := Except.ok.inj h
    exact fun _ hmem => by cases hmem
  | cons field rest ih =>
    unfold drivenCapabilities failExtension at h
    split at h
    · cases h
    · next name hname =>
      obtain ⟨others, hothers, h⟩ := bind_eq_ok h
      obtain rfl := Except.ok.inj h
      have hdeclared : name ∈ names := by simpa using (Option.filter_eq_some_iff.mp hname).2
      exact List.forall_mem_cons.mpr ⟨hdeclared, ih hothers⟩

theorem checkPage_ok {id : String} {names pageIds routes : List String} {fields : PageFields}
    {page : ServicesExtensionPage} (h : checkPage id names pageIds routes fields = .ok page) :
    page.Under id names := by
  unfold checkPage failExtension at h
  split at h
  · cases h
  split at h
  · cases h
  · next hfresh =>
    split at h
    · cases h
    split at h
    · cases h
    · next route hroute =>
      split at h
      · cases h
      split at h
      · cases h
      split at h
      · cases h
      split at h
      · split at h
        · cases h
        · obtain ⟨capabilities, hdriven, h⟩ := bind_eq_ok h
          obtain ⟨script, -, h⟩ := bind_eq_ok h
          obtain rfl := Except.ok.inj h
          have hunder := (Option.filter_eq_some_iff.mp hroute).2
          simp only [Bool.and_eq_true, Bool.or_eq_true, beq_iff_eq] at hunder
          exact ⟨hfresh, hunder.1, drivenCapabilities_ok hdriven⟩
      · cases h

theorem checkPages_ok {id : String} {names : List String} {fields : List PageFields}
    {pageIds routes : List String} {pages : List ServicesExtensionPage}
    (h : checkPages id names pageIds routes fields = .ok pages) :
    ∀ page ∈ pages, page.Under id names := by
  induction fields generalizing pageIds routes pages with
  | nil =>
    obtain rfl := Except.ok.inj h
    exact fun _ hmem => by cases hmem
  | cons field rest ih =>
    obtain ⟨checked, hchecked, h⟩ := bind_eq_ok h
    obtain ⟨others, hothers, h⟩ := bind_eq_ok h
    obtain rfl := Except.ok.inj h
    exact List.forall_mem_cons.mpr ⟨checkPage_ok hchecked, ih hothers⟩

/-- What is returned was checked. -/
theorem defineServicesExtension_checked {input : ExtensionInput} {extension : ServicesExtension}
    (h : defineServicesExtension input = .ok extension) : extension.Checked := by
  obtain ⟨fields, -, h⟩ := bind_eq_ok h
  unfold failExtension at h
  split at h
  · cases h
  · next id hid =>
    split at h
    · cases h
    · next hreserved =>
      obtain ⟨capabilities, hcapabilities, h⟩ := bind_eq_ok h
      obtain ⟨pages, hpages, h⟩ := bind_eq_ok h
      split at h
      · cases h
      · obtain rfl := Except.ok.inj h
        obtain ⟨hunder, hapart⟩ := checkCapabilities_ok hcapabilities
        exact ⟨(Option.filter_eq_some_iff.mp hid).2, fun hin => hreserved (.inl hin),
          fun hin => hreserved (.inr hin), fun capability hmem => (hunder capability hmem).1,
          hapart, checkPages_ok hpages⟩

namespace ServicesExtension.Checked

variable {extension : ServicesExtension} (h : extension.Checked)
include h

theorem id_ne_empty : extension.id ≠ "" := by
  have hgrammar := h.grammar
  rintro hempty
  rw [hempty] at hgrammar
  exact absurd hgrammar (by decide)

/-- The names of the gateway's capabilities are under the extension's id. -/
theorem firstSegment {capability : ServiceCapability}
    (hmem : capability ∈ extensionCapabilities extension) :
    AppPort.firstSegment capability.name = extension.id := by
  obtain ⟨declared, hdeclared, rfl⟩ := List.mem_map.mp hmem
  exact firstSegment_of_hasPrefix h.grammar (h.capabilities declared hdeclared).named

theorem names_nodup :
    ((extensionCapabilities extension).map ServiceCapability.name).Nodup := by
  have hmap : (extensionCapabilities extension).map ServiceCapability.name =
      extension.capabilities.map ServicesExtensionCapability.name := by
    simp [extensionCapabilities]
  rw [hmap]
  exact h.namesApart

theorem fresh {capability : ServiceCapability}
    (hmem : capability ∈ extensionCapabilities extension) :
    getServiceCapability capability.name = none := by
  obtain ⟨declared, hdeclared, rfl⟩ := List.mem_map.mp hmem
  exact (h.capabilities declared hdeclared).fresh

theorem resource {capability : ServiceCapability}
    (hmem : capability ∈ extensionCapabilities extension) :
    capability.resource ∉ BUILT_IN_RESOURCES := by
  obtain ⟨declared, hdeclared, rfl⟩ := List.mem_map.mp hmem
  exact (h.capabilities declared hdeclared).resource

/-- A capability as the gateway asks for it. -/
theorem acceptable {capability : ServiceCapability}
    (hmem : capability ∈ extensionCapabilities extension) :
    extensionNamespace capability.service = extension.id ∧
      hasPrefix capability.name (extensionNamespace capability.service ++ ".") = true ∧
      capability.invocable = false := by
  obtain ⟨declared, hdeclared, rfl⟩ := List.mem_map.mp hmem
  have hnamespace : extensionNamespace ("extension:" ++ extension.id) = extension.id := by
    have hprefix : hasPrefix ("extension:" ++ extension.id) "extension:" = true :=
      hasPrefix_iff.mpr ⟨extension.id.toList, by simp⟩
    unfold extensionNamespace
    rw [if_pos hprefix]
    simp
  refine ⟨hnamespace, ?_, rfl⟩
  show hasPrefix declared.name (extensionNamespace ("extension:" ++ extension.id) ++ ".") = true
  rw [hnamespace]
  exact (h.capabilities declared hdeclared).named

theorem routeSegment {page : ServicesExtensionPage} (hmem : page ∈ extension.pages) :
    AppPort.routeSegment page.route = extension.id :=
  routeSegment_of_under h.grammar (h.pages page hmem).route

end ServicesExtension.Checked

/-! ## A set of extensions -/

/-- The pages of the extensions, in order. -/
def contributedPages (extensions : List ServicesExtension) : List ServicesExtensionPage :=
  extensions.flatMap ServicesExtension.pages

theorem claimPages_ok {pages : List ServicesExtensionPage} {ids routes : List String}
    {claimed : List String × List String} (h : claimPages ids routes pages = .ok claimed)
    (hids : ids.Nodup) (hroutes : routes.Nodup) :
    claimed.1 = (pages.map ServicesExtensionPage.id).reverse ++ ids ∧
      claimed.2 = (pages.map ServicesExtensionPage.route).reverse ++ routes ∧
      claimed.1.Nodup ∧ claimed.2.Nodup := by
  induction pages generalizing ids routes with
  | nil =>
    obtain rfl := Except.ok.inj h
    exact ⟨rfl, rfl, hids, hroutes⟩
  | cons page rest ih =>
    unfold claimPages at h
    split at h
    · cases h
    · next hid =>
      split at h
      · cases h
      · next hroute =>
        obtain ⟨hclaimed, hpaths, hnodups⟩ :=
          ih h (List.nodup_cons.mpr ⟨hid, hids⟩) (List.nodup_cons.mpr ⟨hroute, hroutes⟩)
        refine ⟨?_, ?_, hnodups⟩
        · rw [hclaimed]
          simp
        · rw [hpaths]
          simp

theorem checkTogether_ok {extensions : List ServicesExtension} {ids pages routes : List String}
    (h : checkTogether ids pages routes extensions = .ok ()) (hids : ids.Nodup)
    (hpages : pages.Nodup) (hroutes : routes.Nodup) :
    ((extensions.map ServicesExtension.id).reverse ++ ids).Nodup ∧
      (((contributedPages extensions).map ServicesExtensionPage.id).reverse ++ pages).Nodup ∧
      (((contributedPages extensions).map ServicesExtensionPage.route).reverse ++ routes).Nodup := by
  induction extensions generalizing ids pages routes with
  | nil => exact ⟨hids, hpages, hroutes⟩
  | cons extension rest ih =>
    unfold checkTogether at h
    split at h
    · cases h
    · next hid =>
      obtain ⟨claimed, hclaimed, h⟩ := bind_eq_ok h
      obtain ⟨hone, htwo, hnodup, hpaths⟩ := claimPages_ok hclaimed hpages hroutes
      have hrest := ih h (List.nodup_cons.mpr ⟨hid, hids⟩) hnodup hpaths
      rw [hone, htwo] at hrest
      simpa [contributedPages] using hrest

/-- What `defineServicesExtensions` returns. -/
structure Registrable (extensions : List ServicesExtension) : Prop where
  checked : ∀ extension ∈ extensions, extension.Checked
  ids : (extensions.map ServicesExtension.id).Nodup
  pageIds : ((contributedPages extensions).map ServicesExtensionPage.id).Nodup
  routes : ((contributedPages extensions).map ServicesExtensionPage.route).Nodup

theorem mapM_ok_forall {ε β γ : Type} {f : β → Except ε γ} {P : γ → Prop}
    (hf : ∀ b c, f b = .ok c → P c) {inputs : List β} {outputs : List γ}
    (h : inputs.mapM f = .ok outputs) : ∀ c ∈ outputs, P c := by
  induction inputs generalizing outputs with
  | nil =>
    obtain rfl := Except.ok.inj h
    exact fun _ hmem => by cases hmem
  | cons input rest ih =>
    rw [List.mapM_cons] at h
    obtain ⟨output, houtput, h⟩ := bind_eq_ok h
    obtain ⟨others, hothers, h⟩ := bind_eq_ok h
    obtain rfl := Except.ok.inj h
    exact List.forall_mem_cons.mpr ⟨hf _ _ houtput, ih hothers⟩

theorem defineServicesExtensions_registrable {inputs : List ExtensionInput}
    {extensions : List ServicesExtension} (h : defineServicesExtensions inputs = .ok extensions) :
    Registrable extensions := by
  obtain ⟨defined, hdefined, h⟩ := bind_eq_ok h
  obtain ⟨⟨⟩, htogether, h⟩ := bind_eq_ok h
  obtain rfl := Except.ok.inj h
  obtain ⟨hids, hpages, hroutes⟩ :=
    checkTogether_ok htogether List.nodup_nil List.nodup_nil List.nodup_nil
  simp only [List.append_nil, List.nodup_reverse] at hids hpages hroutes
  exact ⟨mapM_ok_forall (fun _ _ => defineServicesExtension_checked) hdefined, hids, hpages,
    hroutes⟩

namespace Registrable

variable {extensions : List ServicesExtension} (h : Registrable extensions)
include h

/-- Two extensions share no capability name. -/
theorem capabilities_disjoint : extensions.Pairwise fun a b =>
    ∀ c ∈ extensionCapabilities a, ∀ d ∈ extensionCapabilities b, c.name ≠ d.name := by
  have hpairs := List.pairwise_map.mp h.ids
  refine hpairs.imp_of_mem fun {a b} ha hb hne c hc d hd heq => hne ?_
  rw [← (h.checked a ha).firstSegment hc, ← (h.checked b hb).firstSegment hd, heq]

theorem names_nodup :
    ((extensions.flatMap extensionCapabilities).map ServiceCapability.name).Nodup := by
  rw [List.map_flatMap]
  refine List.nodup_flatMap.mpr ⟨fun extension hmem => (h.checked extension hmem).names_nodup, ?_⟩
  refine h.capabilities_disjoint.imp fun {a b} hapart name hname hother => ?_
  obtain ⟨c, hc, rfl⟩ := List.mem_map.mp hname
  obtain ⟨d, hd, heq⟩ := List.mem_map.mp hother
  exact hapart c hc d hd heq.symm

theorem mem_checked {capability : ServiceCapability}
    (hmem : capability ∈ extensions.flatMap extensionCapabilities) :
    ∃ extension : ServicesExtension, extension.Checked ∧
      capability ∈ extensionCapabilities extension := by
  obtain ⟨extension, hextension, hcapability⟩ := List.mem_flatMap.mp hmem
  exact ⟨extension, h.checked extension hextension, hcapability⟩

theorem pages_checked {page : ServicesExtensionPage} (hmem : page ∈ contributedPages extensions) :
    ∃ extension : ServicesExtension, extension.Checked ∧ page ∈ extension.pages := by
  obtain ⟨extension, hextension, hpage⟩ := List.mem_flatMap.mp hmem
  exact ⟨extension, h.checked extension hextension, hpage⟩

end Registrable

/-! ## The gateway takes them -/

/-- Fresh names that differ, each in the shape the gateway asks for, are all accepted. -/
theorem acceptExtensions_all {capabilities accepted : List ServiceCapability}
    (hfresh : ∀ c ∈ capabilities, getServiceCapability c.name = none)
    (hshape : ∀ c ∈ capabilities, extensionNamespace c.service ≠ "" ∧
      hasPrefix c.name (extensionNamespace c.service ++ ".") = true ∧ c.invocable = false)
    (hnames : ((accepted ++ capabilities).map ServiceCapability.name).Nodup) :
    acceptExtensions accepted capabilities = .ok (accepted ++ capabilities) := by
  induction capabilities generalizing accepted with
  | nil => simp [acceptExtensions]
  | cons capability rest ih =>
    obtain ⟨hnew, hfreshes⟩ := List.forall_mem_cons.mp hfresh
    obtain ⟨⟨hnamespace, hprefix, hinvocable⟩, hshapes⟩ := List.forall_mem_cons.mp hshape
    have hunused : capability.name ∉ accepted.map ServiceCapability.name := by
      rw [List.map_append, List.nodup_append] at hnames
      intro hin
      exact hnames.2.2 _ hin capability.name (by simp) rfl
    have happend : accepted ++ capability :: rest = accepted ++ [capability] ++ rest := by simp
    unfold acceptExtensions
    rw [if_neg (by simp [hnew, hunused]), if_neg (by simp [hnamespace, hprefix, hinvocable]),
      happend]
    exact ih hfreshes hshapes (by rw [← happend]; exact hnames)

theorem find_of_names_nodup {capabilities : List ServiceCapability}
    (hnames : (capabilities.map ServiceCapability.name).Nodup) {capability : ServiceCapability}
    (hmem : capability ∈ capabilities) :
    capabilities.find? (fun c => c.name == capability.name) = some capability := by
  induction capabilities with
  | nil => cases hmem
  | cons first rest ih =>
    obtain ⟨hfirst, hrest⟩ := List.nodup_cons.mp hnames
    rcases List.mem_cons.mp hmem with rfl | hmem
    · simp
    · have hne : first.name ≠ capability.name := by
        intro heq
        exact hfirst (heq ▸ List.mem_map_of_mem hmem)
      rw [List.find?_cons_of_neg (by simpa using hne)]
      exact ih hrest hmem

/-- The gateway of a host with these extensions. -/
theorem construct_accepts {extensions : List ServicesExtension} (h : Registrable extensions)
    {options : ServiceGatewayOptions} (happlication : isBlank options.application = false)
    (hdeclared : options.extensionCapabilities = extensions.flatMap extensionCapabilities) :
    ∃ gateway, ServiceGateway.construct options = .ok gateway ∧
      gateway.extensionCapabilities = extensions.flatMap extensionCapabilities := by
  have haccepted : acceptExtensions [] options.extensionCapabilities =
      .ok (extensions.flatMap extensionCapabilities) := by
    rw [hdeclared]
    refine acceptExtensions_all (fun c hc => ?_) (fun c hc => ?_) (by simpa using h.names_nodup)
    · obtain ⟨extension, hchecked, hmem⟩ := h.mem_checked hc
      exact hchecked.fresh hmem
    · obtain ⟨extension, hchecked, hmem⟩ := h.mem_checked hc
      obtain ⟨hnamespace, hprefix, hinvocable⟩ := hchecked.acceptable hmem
      exact ⟨fun hempty => hchecked.id_ne_empty (hnamespace ▸ hempty), hprefix, hinvocable⟩
  unfold ServiceGateway.construct
  rw [if_neg (by simp [happlication]), haccepted]
  exact ⟨_, rfl, rfl⟩

/-- For extensions `defineServicesExtensions` accepts, the gateway's constructor accepts
their capabilities. The names differ from each other and from the manifest's, the gateway
resolves each to the extension that declared it, none is reached through `invokeService`,
and none applies to a built-in resource type; page ids and routes differ from each other
and from the packaged ones. -/
theorem extensions_extend_the_host {inputs : List ExtensionInput}
    {extensions : List ServicesExtension} (h : defineServicesExtensions inputs = .ok extensions)
    {options : ServiceGatewayOptions} (happlication : isBlank options.application = false)
    (hdeclared : options.extensionCapabilities = extensions.flatMap extensionCapabilities) :
    ∃ gateway, ServiceGateway.construct options = .ok gateway ∧
      ((ENTRIES ++ extensions.flatMap extensionCapabilities).map ServiceCapability.name).Nodup ∧
      (∀ extension ∈ extensions, ∀ capability ∈ extensionCapabilities extension,
        gateway.capability capability.name = some capability ∧
          capability.service = "extension:" ++ extension.id) ∧
      (extensions.map ServicesExtension.id).Nodup ∧
      (∀ capability ∈ extensions.flatMap extensionCapabilities,
        (∀ (handlers : String → JsValue → VerifiedPrincipal → Svc τ α) input principal,
          ∃ message, invokeService handlers capability.name input principal =
            throw (serviceError .invalidRequest message)) ∧
          ∀ builtIn ∈ ENTRIES, capability.resource ≠ builtIn.resource) ∧
      (SURFACES.map Prod.fst ++ (contributedPages extensions).map ServicesExtensionPage.id).Nodup ∧
      (SURFACES.map Prod.snd ++
        (contributedPages extensions).map ServicesExtensionPage.route).Nodup := by
  have hregistrable := defineServicesExtensions_registrable h
  obtain ⟨gateway, hgateway, hcapabilities⟩ :=
    construct_accepts hregistrable happlication hdeclared
  refine ⟨gateway, hgateway, ?_, fun extension hextension capability hmem => ?_, hregistrable.ids,
    fun capability hmem => ⟨fun handlers input principal => ?_, fun builtIn hbuiltIn heq => ?_⟩,
    ?_, ?_⟩
  · rw [List.map_append, List.nodup_append]
    refine ⟨by decide +kernel, hregistrable.names_nodup, ?_⟩
    intro name hname other hother heq
    subst heq
    obtain ⟨builtIn, hbuiltIn, rfl⟩ := List.mem_map.mp hname
    obtain ⟨capability, hcapability, hsame⟩ := List.mem_map.mp hother
    obtain ⟨extension, hchecked, hmem⟩ := hregistrable.mem_checked hcapability
    apply hchecked.ownNamespace
    rw [← hchecked.firstSegment hmem, hsame]
    exact firstSegment_mem_namespaces hbuiltIn
  · have hchecked := hregistrable.checked extension hextension
    have hin : capability ∈ extensions.flatMap extensionCapabilities :=
      List.mem_flatMap.mpr ⟨extension, hextension, hmem⟩
    constructor
    · unfold ServiceGateway.capability
      rw [hchecked.fresh hmem, hcapabilities, find_of_names_nodup hregistrable.names_nodup hin]
      rfl
    · obtain ⟨declared, -, rfl⟩ := List.mem_map.mp hmem
      rfl
  · obtain ⟨extension, hchecked, hmem⟩ := hregistrable.mem_checked hmem
    unfold invokeService
    rw [hchecked.fresh hmem]
    exact ⟨_, rfl⟩
  · obtain ⟨extension, hchecked, hmem⟩ := hregistrable.mem_checked hmem
    exact hchecked.resource hmem (heq ▸ List.mem_map_of_mem hbuiltIn)
  · rw [List.nodup_append]
    refine ⟨by decide +kernel, hregistrable.pageIds, ?_⟩
    intro id hid other hother heq
    subst heq
    obtain ⟨surface, hsurface, rfl⟩ := List.mem_map.mp hid
    obtain ⟨page, hpage, hsame⟩ := List.mem_map.mp hother
    obtain ⟨extension, hchecked, hmem⟩ := hregistrable.pages_checked hpage
    exact (hchecked.pages page hmem).fresh (hsame ▸ (surface_reserved hsurface).1)
  · rw [List.nodup_append]
    refine ⟨by decide +kernel, hregistrable.routes, ?_⟩
    intro route hroute other hother heq
    subst heq
    obtain ⟨surface, hsurface, rfl⟩ := List.mem_map.mp hroute
    obtain ⟨page, hpage, hsame⟩ := List.mem_map.mp hother
    obtain ⟨extension, hchecked, hmem⟩ := hregistrable.pages_checked hpage
    apply hchecked.unreserved
    rw [← hchecked.routeSegment hmem, hsame]
    exact (surface_reserved hsurface).2

/-- An extension with a page that drives both of its capabilities. -/
def notesInput : ExtensionInput where
  fields := .obj [("id", .str "notes"),
    ("capabilities", .arr [
      .obj [("name", .str "notes.read"), ("operation", .str "listNotes"),
        ("effect", .str "observation"), ("resource", .str "note")],
      .obj [("name", .str "notes.write"), ("operation", .str "createNote"),
        ("effect", .str "consequential"), ("resource", .str "note")]]),
    ("pages", .arr [.obj [("id", .str "notes"), ("title", .str "Notes"), ("route", .str "/notes"),
      ("order", .num 90), ("description", .str "Notes for this tenant."),
      ("capabilities", .arr [.str "notes.read", .str "notes.write"]), ("script", .str "draw()")]])]
  routes := .function

/-- The checked copy. -/
def notesExtension : ServicesExtension where
  id := "notes"
  capabilities := [⟨"notes.read", "listNotes", .observation, "note"⟩,
    ⟨"notes.write", "createNote", .consequential, "note"⟩]
  pages := [⟨"notes", "Notes", "/notes", 90, "Notes for this tenant.",
    ["notes.read", "notes.write"], "draw()"⟩]
  routes := true

/-- What a host with the notes extension gives its gateway. -/
def notesOptions : ServiceGatewayOptions where
  application := "crm"
  extensionCapabilities := [notesExtension].flatMap extensionCapabilities

/-- What a note is written with. -/
def notesWrite : ServiceCapability where
  name := "notes.write"
  service := "extension:notes"
  operation := "createNote"
  effect := .consequential
  resource := "note"
  invocable := false

/-- A host with the notes extension. -/
theorem notes_extend_the_host :
    ∃ gateway, ServiceGateway.construct notesOptions = .ok gateway ∧
      gateway.capability "notes.write" = some notesWrite := by
  have hdefined : defineServicesExtensions [notesInput] = .ok [notesExtension] := by decide +kernel
  obtain ⟨gateway, hgateway, -, hcapability, -⟩ :=
    @extensions_extend_the_host Nat Unit [notesInput] [notesExtension] hdefined notesOptions
      (by decide +kernel) rfl
  exact ⟨gateway, hgateway,
    (hcapability notesExtension (by simp) notesWrite (by decide +kernel)).1⟩

end AppPort
