import RayOnGolem.ConfigDefaultsLoop

/-!
# Config defaults: the provider parameters

What `_apply_config_defaults` does before the loop: the config gets new provider parameters,
the given ones over a copy of `PROVIDER_DEFAULTS` (`mergeParameters_ends`), and is then ready
for the loop (`ParametersMerged.loopReady`).

`Unaliased` says which configs this is about: the dictionaries that are changed in place, and
the containers of the provider's `node_config`, occur once in the config.  A config that is
read from a text without aliases to these is one.
-/

namespace ConfigDefaults

open PyHeap PathView

/-- A config whose dictionaries that are changed occur once in it; it has nothing of the
module's defaults. -/
structure Unaliased (h : Heap) (c : Nat) : Prop where
  valid : Valid h
  config : Owned h (.ref c) []
  fresh : ∀ r, (view h (.ref c)).Has r → moduleHeap.length ≤ r
  provider : Owned h (.ref c) [.key "provider"]
  parameters : ∃ r, view h (.ref c) parametersPath = some (.dict r)
  unshared : ((view h (.ref c)).under providerNodeConfigPath).Unshared
  nodeTypes : ∀ x, view h (.ref c) [.key "available_node_types"] = some x → ∃ r, x = .dict r
  nodeType : ∀ name, view h (.ref c) (nodeTypePath name) ≠ none →
    Owned h (.ref c) (nodeTypePath name) ∧
      ∃ r, view h (.ref c) (nodeConfigPath name) = some (.dict r)
  auth : ∀ r, view h (.ref c) [.key "auth"] = some (.dict r) →
    (view h (.ref c)).Sole [.key "auth"] r

/-- The keys of the dictionaries of a config that are merged into others. -/
structure SourceKeys (p : Scalar → Prop) (v : Plain) : Prop where
  parameters : KeysIn p (v.under parametersPath)
  nodeConfigs : ∀ name, KeysIn p (v.under (nodeConfigPath name))

/-- Such a config, with keys that `dpath` reads, in a heap whose defaults are as the module made
them. -/
structure CallReady (reads : Scalar → Prop) (h : Heap) (c : Nat) : Prop extends Unaliased h c where
  defaults : moduleHeap <+: h
  read : SourceKeys reads (view h (.ref c)).erase

/-- The containers that a config has at least. -/
structure Shaped (h : Heap) (c : Nat) : Prop where
  config : ∃ r, view h (.ref c) [] = some (.dict r)
  provider : ∃ r, view h (.ref c) [.key "provider"] = some (.dict r)
  parameters : ∃ r, view h (.ref c) parametersPath = some (.dict r)
  nodeTypes : ∀ x, view h (.ref c) [.key "available_node_types"] = some x → ∃ r, x = .dict r
  nodeType : ∀ name, view h (.ref c) (nodeTypePath name) ≠ none →
    (∃ r, view h (.ref c) (nodeTypePath name) = some (.dict r)) ∧
      ∃ r, view h (.ref c) (nodeConfigPath name) = some (.dict r)

/-- The config with new provider parameters. -/
structure ParametersMerged (h : Heap) (c : Nat) (h' : Heap) (parameters : Nat) : Prop where
  valid : Valid h'
  grows : h.length ≤ h'.length
  parameters_new : h.length ≤ parameters
  frame : ∀ r < h.length, view h (.ref c) [.key "provider"] ≠ some (.dict r) → h'[r]? = h[r]?
  merged : ∃ v : View Scalar Scalar Nat, view h' (.ref c) =
      (view h (.ref c)).setAt v parametersPath ∧
    v [] = some (.dict parameters) ∧ v.Sole [] parameters ∧
    (∀ r, v.Has r → h.length ≤ r ∨ ((view h (.ref c)).under parametersPath).Has r) ∧
    (v.sub (.key "node_config")).Unshared ∧
    v.erase = providerDefaults.merge ((view h (.ref c)).under parametersPath).erase

variable {h h' : Heap} {c r parameters : Nat} {q : List (Seg Scalar)} {reads : Scalar → Prop}

theorem unshared_moduleHeap (n : Nat) : (view moduleHeap (.ref n)).Unshared :=
  IsTree.unshared (by decide) n

theorem owned_of_tree (ht : IsTree h) (hq : view h (.ref c) q = some (.dict r)) :
    Owned h (.ref c) q :=
  ⟨r, hq, ht.unshared c q r (by rw [View.ident, hq]; rfl)⟩

/-- A config whose objects occur once. -/
theorem Shaped.unaliased (hs : Shaped h c) (hh : Valid h) (ht : IsTree h)
    (hc : moduleHeap.length ≤ c) : Unaliased h c := by
  obtain ⟨cr, hcr⟩ := hs.config
  obtain ⟨pr, hpr⟩ := hs.provider
  refine ⟨hh, owned_of_tree ht hcr, fun r hr => ?_, owned_of_tree ht hpr, hs.parameters,
    fun p r hp q hq => ?_, hs.nodeTypes, fun name hname => ?_,
    fun r hr => ?_⟩
  · obtain ⟨q, hq⟩ := hr
    rcases ht.find_cases (ident_view.mp hq) with ⟨-, rfl⟩ | hlt
    · exact hc
    · omega
  · rw [View.ident_under] at hp hq
    simpa using ht.unshared c _ r hp _ hq
  · obtain ⟨⟨t, ht'⟩, hown⟩ := hs.nodeType name hname
    exact ⟨owned_of_tree ht ht', hown⟩
  · exact ht.unshared c _ r (by rw [View.ident, hr]; rfl)

/-- New parameters, before they are assigned to the provider; they share with the given ones
only. -/
structure ParametersBuilt (h : Heap) (c : Nat) (h' : Heap) (parameters : Nat) : Prop where
  valid : Valid h'
  grows : h.length ≤ h'.length
  parameters_new : h.length ≤ parameters
  frame : ∀ r < h.length, h'[r]? = h[r]?
  root : view h' (.ref parameters) [] = some (.dict parameters)
  sole : (view h' (.ref parameters)).Sole [] parameters
  fresh : ∀ r, (view h' (.ref parameters)).Has r →
    h.length ≤ r ∨ ((view h (.ref c)).under parametersPath).Has r
  unshared : ((view h' (.ref parameters)).sub (.key "node_config")).Unshared
  content : (view h' (.ref parameters)).erase =
    providerDefaults.merge ((view h (.ref c)).under parametersPath).erase

/-- The parameters are assigned to the provider. -/
theorem ParametersBuilt.assigned (hb : ParametersBuilt h c h' parameters) (hu : CallReady reads h c)
    {h₃ : Heap} {pr : Nat} {e : Dict Scalar Value}
    (hpr : view h (.ref c) [.key "provider"] = some (.dict pr)) (he : h[pr]? = some (.dict e))
    (ha : Assigned h' pr e (.str "parameters") (.ref parameters) h₃) :
    ParametersMerged h c h₃ parameters := by
  obtain ⟨pr', hpr', hsole⟩ := hu.provider
  obtain rfl : pr = pr' := by simpa [hpr] using hpr'
  have hlt : pr < h.length := (List.getElem?_eq_some_iff.mp he).1
  have hsame : view h₃ (.ref parameters) = view h' (.ref parameters) := by
    refine view_congr fun r hr => ha.other r fun heq => ?_
    rcases hb.fresh r hr with hge | hin
    · omega
    · obtain ⟨q, hq⟩ := hin
      have hpath := hsole _ (heq ▸ hq)
      simp [parametersPath] at hpath
  have hview := view_assign (view_eq_dict_iff.mp hpr).1 hsole he ha.self fun r hr hne =>
    (ha.other r hne).trans (hb.frame r (hu.valid.has_lt hu.config.live hr))
  refine ⟨ha.valid, ha.length ▸ hb.grows, hb.parameters_new, fun r hr hne => ?_,
    view h₃ (.ref parameters), hview, ?_⟩
  · have hne' : r ≠ pr := fun heq => hne (heq ▸ hpr)
    rw [ha.other r hne', hb.frame r hr]
  · rw [hsame]
    exact ⟨hb.root, hb.sole, hb.fresh, hb.unshared, hb.content⟩

/-! ### The copy of the defaults -/

theorem view_copied_defaults (hm : moduleHeap <+: h) :
    view (deepcopy h PROVIDER_DEFAULTS).1 (.ref h.length) =
      (view moduleHeap PROVIDER_DEFAULTS).map (h.length + ·) := by
  have hdeep := view_deepcopy h PROVIDER_DEFAULTS PROVIDER_DEFAULTS
  rw [PROVIDER_DEFAULTS, view_module hm (by decide)] at hdeep
  exact hdeep

theorem copied_defaults_new (hm : moduleHeap <+: h)
    (hr : (view (deepcopy h PROVIDER_DEFAULTS).1 (.ref h.length)).Has r) : h.length ≤ r := by
  obtain ⟨y, -, rfl⟩ := View.Has.of_map (view_copied_defaults hm ▸ hr)
  exact Nat.le_add_right _ _

/-- The given parameters can be merged into the copy. -/
theorem CallReady.mergeable (hu : CallReady reads h c) {pm : Nat} {e : Dict Scalar Value}
    (hfind : find h (.ref c) parametersPath = some (.ref pm)) (he : h[pm]? = some (.dict e)) :
    Mergeable (deepcopy h PROVIDER_DEFAULTS).1 h.length pm ∧
      view (deepcopy h PROVIDER_DEFAULTS).1 (.ref pm) =
        (view h (.ref c)).under parametersPath := by
  have hlt : pm < h.length := (List.getElem?_eq_some_iff.mp he).1
  have hlen := hu.defaults.length_le
  have hgiven : view (deepcopy h PROVIDER_DEFAULTS).1 (.ref pm) =
      (view h (.ref c)).under parametersPath := by
    rw [under_view hfind]
    exact view_append (v := .ref pm) hu.valid hlt _
  refine ⟨⟨hu.valid.deepcopy _, ?_, ⟨e, (List.getElem?_append_left hlt).trans he⟩, ?_,
    fun r hr hr' => ?_⟩, hgiven⟩
  · have hobj := getElem?_deepcopy h PROVIDER_DEFAULTS 0
    rw [getElem?_module hu.defaults (by decide)] at hobj
    exact ⟨_, hobj⟩
  · rw [view_copied_defaults hu.defaults]
    exact (unshared_moduleHeap 0).map fun x y hxy => by simpa using hxy
  · have hge := copied_defaults_new hu.defaults hr
    rw [hgiven] at hr'
    have hlt := hu.valid.has_lt hu.config.live hr'.of_under
    omega

/-- What the merge into the copy makes. -/
theorem CallReady.built (hu : CallReady reads h c) {pm : Nat}
    (hpm : view h (.ref c) parametersPath = some (.dict pm))
    (hd : Merged (deepcopy h PROVIDER_DEFAULTS).1 h.length pm h') :
    ParametersBuilt h c h' h.length := by
  obtain ⟨hfind, e, he⟩ := view_eq_dict_iff.mp hpm
  obtain ⟨hm, hgiven⟩ := hu.mergeable hfind he
  have hmerged := hd.merged
  have hapart := hm.apart
  rw [hgiven] at hmerged hapart
  obtain ⟨e₀, he₀⟩ := hm.target
  have hroot : view (deepcopy h PROVIDER_DEFAULTS).1 (.ref h.length) [] =
      some (.dict h.length) := view_dict_nil he₀
  have hgrows : h.length ≤ (deepcopy h PROVIDER_DEFAULTS).1.length := by simp [deepcopy]
  refine ⟨hd.valid, hgrows.trans hd.grows, le_rfl, fun r hr => ?_, ?_, ?_, fun r hr => ?_, ?_, ?_⟩
  · have hout : ¬ (view (deepcopy h PROVIDER_DEFAULTS).1 (.ref h.length)).Has r := fun hin => by
      have hge := copied_defaults_new hu.defaults hin
      omega
    rw [hd.frame r (Nat.lt_of_lt_of_le hr hgrows) hout]
    exact List.getElem?_append_left hr
  · rw [hmerged]
    exact View.merge_nil_dict hroot (by simpa using hpm)
  · rw [hmerged]
    exact View.sole_merge_nil hm.unshared hapart (by rw [View.ident, hroot]; rfl)
  · rw [hmerged] at hr
    exact hr.of_merge.imp_left (copied_defaults_new hu.defaults)
  · rw [hmerged, View.sub_merge_dict hroot (by simpa using hpm)]
    exact View.unshared_merge (hm.unshared.sub _) hu.unshared (hapart.sub _ _)
  · rw [hmerged, View.erase, View.map_merge, view_copied_defaults hu.defaults]
    exact congrArg (View.merge · _) (View.erase_map _ _)

/-- **The provider parameters** over their defaults. -/
theorem mergeParameters_ends {merge : Heap → Value → Value → Option Heap} {Q : Prop}
    (hmerge : DeepMerges reads (acceptsKey · = true) merge) (hu : CallReady reads h c)
    (hkeys : Q → KeysIn (acceptsKey · = true) ((view h (.ref c)).under parametersPath)) :
    Ends Q (mergeParameters merge h (.ref c)) fun x =>
      ∃ parameters, x.2 = .ref parameters ∧ ParametersMerged h c x.1 parameters := by
  obtain ⟨pr, hpr, -⟩ := hu.provider
  obtain ⟨pm, hpm⟩ := hu.parameters
  obtain ⟨hfindPr, e, he⟩ := view_eq_dict_iff.mp hpr
  obtain ⟨hfindPm, e', he'⟩ := view_eq_dict_iff.mp hpm
  have hitems : ∀ h₁ : Heap, (∀ r < h.length, h₁[r]? = h[r]?) →
      getItem h₁ (.ref c) "provider" = some (.ref pr) ∧
        getItem h₁ (.ref pr) "parameters" = some (.ref pm) := by
    intro h₁ hframe
    have hfinds : ∀ p, find h₁ (.ref c) p = find h (.ref c) p :=
      find_congr fun r hr => hframe r (hu.valid.has_lt hu.config.live hr)
    have hfindPr' := (hfinds _).trans hfindPr
    exact ⟨(find_key (p := []) rfl).symm.trans hfindPr',
      (find_key hfindPr').symm.trans ((hfinds _).trans hfindPm)⟩
  obtain ⟨hprItem, hpmItem⟩ := hitems (deepcopy h PROVIDER_DEFAULTS).1 fun r hr =>
    List.getElem?_append_left hr
  obtain ⟨hm, hgiven⟩ := hu.mergeable hfindPm he'
  simp only [mergeParameters, hprItem, hpmItem, Option.bind_eq_bind, Option.bind_some]
  have hreads : KeysIn reads (view (deepcopy h PROVIDER_DEFAULTS).1 (.ref pm)) :=
    hgiven ▸ hu.read.parameters.of_map
  have hends := (hmerge.dicts _ _ _ hm hreads).weaken fun hq => hgiven ▸ hkeys hq
  refine Ends.bind hends fun h₂ hd => ?_
  have hb := hu.built hpm hd
  have hpr₂ : h₂[pr]? = some (.dict e) :=
    (hb.frame pr (List.getElem?_eq_some_iff.mp he).1).trans he
  obtain ⟨-, e₂, he₂⟩ := view_eq_dict_iff.mp hb.root
  obtain ⟨h₃, hset, ha⟩ := setItem_assigned hb.valid hpr₂ (w := .ref h.length)
    (List.getElem?_eq_some_iff.mp he₂).1 (.str "parameters")
  have hcopied : (deepcopy h PROVIDER_DEFAULTS).2 = .ref h.length := rfl
  simp only [(hitems h₂ hb.frame).1, hcopied, hset, Option.bind_some]
  exact ⟨h.length, rfl, hb.assigned hu hpr he ha⟩

theorem dict_of_erased {x : Option (Node Scalar Nat)}
    (hx : x.map (Node.map fun _ => ()) = some (.dict ())) : ∃ r, x = some (.dict r) := by
  rcases x with _ | a | r | ⟨r, n⟩
  · cases hx
  · cases hx
  · exact ⟨r, rfl⟩
  · cases hx

theorem atom_of_erased {x : Option (Node Scalar Nat)} {a : Scalar}
    (hx : x.map (Node.map fun _ => ()) = some (.atom a)) : x = some (.atom a) := by
  rcases x with _ | b | r | ⟨r, n⟩
  · cases hx
  · cases hx
    rfl
  · cases hx
  · cases hx

/-- The config with the provider parameters over their defaults. -/
def withParameters (v : Plain) : Plain :=
  v.setAt (providerDefaults.merge (v.under parametersPath)) parametersPath

section Merged

variable (hp : ParametersMerged h c h' parameters)

include hp

theorem ParametersMerged.value :
    (view h' (.ref c)).erase = withParameters (view h (.ref c)).erase := by
  obtain ⟨v, hv, -, -, -, -, herase⟩ := hp.merged
  rw [hv, View.erase, View.map_setAt, withParameters]
  exact congrArg (View.setAt _ · _) herase

/-- What is not below the parameters is as it was. -/
theorem ParametersMerged.view_other (hq : ¬ parametersPath <+: q) :
    view h' (.ref c) q = view h (.ref c) q := by
  obtain ⟨v, hv, -⟩ := hp.merged
  rw [hv, View.setAt_of_outside hq]

theorem ParametersMerged.sole (hr : r < h.length) (hs : (view h (.ref c)).Sole q r)
    (hq : ¬ parametersPath <+: q) : (view h' (.ref c)).Sole q r := by
  obtain ⟨v, hv, -, -, hfrom, -⟩ := hp.merged
  rw [hv]
  refine hs.setAt fun hin => ?_
  rcases hfrom r hin with hge | ⟨q', hq'⟩
  · omega
  · exact hq ⟨q', hs _ hq'⟩

variable (hu : CallReady reads h c)

include hu

/-- New objects change nothing. -/
theorem ParametersMerged.append {l : List (Obj Scalar Scalar)} (hvalid : Valid (h' ++ l)) :
    ParametersMerged h c (h' ++ l) parameters := by
  have hlive : (Value.ref c : Value).Live h'.length := hu.config.live.mono hp.grows
  refine ⟨hvalid, hp.grows.trans (by simp), hp.parameters_new, fun r hr hne => ?_, ?_⟩
  · rw [List.getElem?_append_left (Nat.lt_of_lt_of_le hr hp.grows), hp.frame r hr hne]
  · rw [view_append hp.valid hlive]
    exact hp.merged

theorem ParametersMerged.owned (ho : Owned h (.ref c) q) (hq : ¬ parametersPath <+: q) :
    Owned h' (.ref c) q := by
  obtain ⟨r, hr, hs⟩ := ho
  exact ⟨r, (hp.view_other hq).trans hr,
    hp.sole (hu.valid.has_lt hu.config.live (has_of_dict hr)) hs hq⟩

/-- The parameters stand at their place only. -/
theorem ParametersMerged.parameters_at :
    view h' (.ref c) parametersPath = some (.dict parameters) ∧
      (view h' (.ref c)).Sole parametersPath parameters := by
  obtain ⟨v, hv, hroot, hsole, -⟩ := hp.merged
  rw [hv]
  refine ⟨by simpa [hroot] using View.setAt_append (view h (.ref c)) v parametersPath [],
    fun q hq => ?_⟩
  rcases View.ident_setAt hq with ⟨q', rfl, hin⟩ | ⟨-, hold⟩
  · rw [hsole q' hin, List.append_nil]
  · have hlt := hu.valid.has_lt hu.config.live ⟨q, hold⟩
    have hge := hp.parameters_new
    omega

theorem ParametersMerged.fresh : ∀ r, (view h' (.ref c)).Has r → moduleHeap.length ≤ r := by
  obtain ⟨v, hv, -, -, hfrom, -⟩ := hp.merged
  rintro r ⟨q, hq⟩
  rw [hv] at hq
  rcases View.ident_setAt hq with ⟨q', -, hin⟩ | ⟨-, hold⟩
  · rcases hfrom r ⟨q', hin⟩ with hge | hunder
    · exact hu.defaults.length_le.trans hge
    · exact hu.fresh r hunder.of_under
  · exact hu.fresh r ⟨q, hold⟩

theorem ParametersMerged.defaults : moduleHeap <+: h' := by
  refine List.prefix_iff_getElem?.mpr fun r hr => ?_
  have hold : h[r]? = some moduleHeap[r] := List.prefix_iff_getElem?.mp hu.defaults r hr
  rw [← hold]
  refine hp.frame r (Nat.lt_of_lt_of_le hr hu.defaults.length_le) fun hpr => ?_
  have hge := hu.fresh r (has_of_dict hpr)
  omega

/-- The `node_config` of the provider over its default. -/
theorem ParametersMerged.providerNodeConfig :
    (view h' (.ref c)).erase providerNodeConfigPath =
      (providerDefaults.sub (.key "node_config")).merge
        ((view h (.ref c)).erase.under providerNodeConfigPath) [] := by
  obtain ⟨pm, hpm⟩ := hu.parameters
  have hroot : ((view h (.ref c)).erase.under parametersPath) [] = some (.dict ()) := by
    simp [View.erase, hpm, Node.map]
  have hgiven : (view h (.ref c)).erase.under providerNodeConfigPath =
      ((view h (.ref c)).erase.under parametersPath).sub (.key "node_config") := rfl
  rw [hgiven, ← View.sub_merge_dict (show providerDefaults [] = some (.dict ()) from rfl) hroot,
    hp.value]
  exact View.setAt_append (view h (.ref c)).erase
    (providerDefaults.merge ((view h (.ref c)).erase.under parametersPath)) parametersPath
    [.key "node_config"]

/-- The config is ready for the loop. -/
theorem ParametersMerged.loopReady : LoopReady h' c := by
  have hother : ∀ q', ¬ parametersPath <+: .key "available_node_types" :: q' := by
    simp [parametersPath]
  refine ⟨hp.valid, hp.defaults hu, hp.owned hu hu.config (by simp [parametersPath]), hp.fresh hu,
    fun hnone => ?_, ?_, fun x hx => ?_, fun name hname => ?_⟩
  · have hvalue := hp.providerNodeConfig hu
    rw [View.erase, View.map_apply, hnone, Option.map_none] at hvalue
    exact View.merge_ne_none rfl hvalue.symm
  · obtain ⟨v, hv, -, -, -, hunshared, -⟩ := hp.merged
    have hsub : (view h' (.ref c)).under providerNodeConfigPath = v.sub (.key "node_config") := by
      funext q
      rw [hv]
      exact View.setAt_append _ _ parametersPath (.key "node_config" :: q)
    exact hsub ▸ hunshared
  · rw [hp.view_other (hother [])] at hx
    exact hu.nodeTypes x hx
  · rw [hp.view_other (q := nodeTypePath name) (hother _)] at hname
    obtain ⟨howned, r, hr⟩ := hu.nodeType name hname
    exact ⟨hp.owned hu howned (hother _), r, (hp.view_other (hother _)).trans hr⟩

end Merged

end ConfigDefaults
