import RayOnGolem.ConfigDefaults

/-!
# Config defaults: one node type

What the body of the loop over the node types does: the node type gets a new `node_config`,
which is `resolvedNodeConfig`, and all other objects stay as they are.
-/

namespace ConfigDefaults

open PyHeap PathView

/-- A value without identities. -/
abbrev Plain := View Scalar Scalar Unit

/-- `PROVIDER_DEFAULTS`. -/
def providerDefaults : Plain := (view moduleHeap PROVIDER_DEFAULTS).erase

/-- `HEAD_NODE_DEFAULTS`. -/
def headDefaults : Plain := (view moduleHeap HEAD_NODE_DEFAULTS).erase

/-- An empty dictionary. -/
def emptyDict : Plain
  | [] => some (.dict ())
  | _ :: _ => none

/-- The `node_config` that a node type starts with. -/
def startNodeConfig (head : Bool) : Plain :=
  if head then headDefaults.sub (.key "node_config") else emptyDict

/-- The start under the `node_config` of the provider, if that is a dictionary. -/
def lowerNodeConfig (start providerNodeConfig : Plain) : Plain :=
  match providerNodeConfig [] with
  | some (.atom _) | some (.list _ _) => start
  | _ => start.merge providerNodeConfig

/-- The `node_config` that the loop makes of that of the provider and that of the node type. -/
def resolvedNodeConfig (start providerNodeConfig ownNodeConfig : Plain) : Plain :=
  (lowerNodeConfig start providerNodeConfig).merge ownNodeConfig

variable {h h' : Heap} {c r : Nat} {name : Scalar} {d : Dict Scalar Value}

/-! ### New dictionaries -/

theorem atom_of_child (hd : h[r]? = some (.dict d)) (hatoms : ∀ v ∈ d.values, ∃ a, v = .atom a)
    {s : Seg Scalar} {w : Value} (hw : child h (.ref r) s = some w) : ∃ a, w = .atom a := by
  cases s with
  | key k =>
      rw [child_key hd] at hw
      exact hatoms w (Dict.mem_values_of_get hw)
  | idx i =>
      rw [child_idx_dict hd] at hw
      cases hw

/-- A dictionary of atoms has no other container. -/
theorem ident_of_atoms (hd : h[r]? = some (.dict d)) (hatoms : ∀ v ∈ d.values, ∃ a, v = .atom a)
    {p : List (Seg Scalar)} {r' : Nat} (hp : (view h (.ref r)).ident p = some r') : p = [] := by
  rw [ident_view] at hp
  cases p with
  | nil => rfl
  | cons s p =>
      exfalso
      rw [find_cons] at hp
      obtain ⟨w, hw, hp⟩ := Option.bind_eq_some_iff.mp hp
      obtain ⟨a, rfl⟩ := atom_of_child hd hatoms hw
      exact find_atom_ne_ref h a p r' hp

/-- The keys of a dictionary of atoms. -/
theorem keysIn_of_atoms {P : Scalar → Prop} (hd : h[r]? = some (.dict d))
    (hatoms : ∀ v ∈ d.values, ∃ a, v = .atom a) (hkeys : ∀ k ∈ d.keys, P k) :
    KeysIn P (view h (.ref r)) := by
  intro p k hne
  cases p with
  | nil =>
      refine hkeys k (Dict.mem_keys_iff.mpr fun hnone => hne ?_)
      simp [view, find_cons, child_key hd, hnone]
  | cons s p =>
      exfalso
      obtain ⟨n, hn⟩ := Option.ne_none_iff_exists'.mp hne
      obtain ⟨c, hc, -⟩ := Option.map_eq_some_iff.mp hn
      rw [List.cons_append, find_cons] at hc
      obtain ⟨w, hw, hc⟩ := Option.bind_eq_some_iff.mp hc
      obtain ⟨a, rfl⟩ := atom_of_child hd hatoms hw
      cases p with
      | nil => cases hc
      | cons t p => simp [find_atom_cons] at hc

theorem view_empty (hd : h[r]? = some (.dict {})) : (view h (.ref r)).erase = emptyDict := by
  funext p
  cases p with
  | nil => simp [View.erase, view_dict_nil hd, emptyDict, Node.map]
  | cons s p =>
      have hchild : child h (.ref r) s = none := by
        cases s with
        | key k => rw [child_key hd]; rfl
        | idx i => exact child_idx_dict hd
      simp [View.erase, view, find_cons, hchild, emptyDict]

theorem valid_moduleHeap : Valid moduleHeap := by decide

/-- The defaults of the module are the same in each heap that has its objects. -/
theorem view_module (hm : moduleHeap <+: h) (hr : r < moduleHeap.length) :
    view h (.ref r) = view moduleHeap (.ref r) := by
  obtain ⟨l, rfl⟩ := hm
  exact view_append (v := .ref r) valid_moduleHeap hr l

/-- A new result, with a new `node_config` that has no other container. -/
structure Started (h : Heap) (head : Bool) (h' : Heap) (result nodeConfig : Nat) :
    Prop where
  valid : Valid h'
  grows : h <+: h'
  result_new : h.length ≤ result
  result_eq : h'[result]? = some (.dict ⟨[("node_config", .ref nodeConfig)]⟩)
  result_ne : result ≠ nodeConfig
  nodeConfig_new : h.length ≤ nodeConfig
  isDict : ∃ e, h'[nodeConfig]? = some (.dict e)
  alone : ∀ p r, (view h' (.ref nodeConfig)).ident p = some r → p = []
  content : (view h' (.ref nodeConfig)).erase = startNodeConfig head

/-- The start of an ordinary node type. -/
theorem started_ordinary (hh : Valid h) :
    Started h false
      (h ++ [.dict ⟨[("node_config", .ref (h.length + 1))]⟩, .dict {}]) h.length
      (h.length + 1) := by
  have hresult : (h ++ [.dict ⟨[("node_config", .ref (h.length + 1))]⟩, .dict {}])[h.length]? =
      some (.dict ⟨[((("node_config" : String) : Scalar), .ref (h.length + 1))]⟩) := by simp
  have hempty : (h ++ [.dict ⟨[("node_config", .ref (h.length + 1))]⟩, .dict {}] : Heap)[
      h.length + 1]? = some (.dict {}) := by
    rw [List.getElem?_append_right (by omega)]
    simp
  refine ⟨hh.append fun o ho => ?_, List.prefix_append _ _, le_refl _, hresult, by omega,
    by omega, ⟨_, hempty⟩, fun p r hp => ?_, ?_⟩
  · simp only [List.mem_cons, List.not_mem_nil, or_false] at ho
    rcases ho with rfl | rfl
    · exact wf_single (by simp [Value.Live])
    · exact wf_empty
  · exact ident_of_atoms hempty (by simp [Dict.values]) hp
  · simpa [startNodeConfig] using view_empty hempty

/-- The objects of the module are in each heap that has them. -/
theorem getElem?_module (hm : moduleHeap <+: h) (hr : r < moduleHeap.length) :
    h[r]? = moduleHeap[r]? := by
  obtain ⟨l, rfl⟩ := hm
  exact List.getElem?_append_left hr

/-- The copy of an object of the module. -/
theorem getElem?_copied (hm : moduleHeap <+: h) (hr : r < moduleHeap.length) (v : Value)
    (l : List (Obj Scalar Scalar)) :
    ((deepcopy h v).1 ++ l)[h.length + r]? = moduleHeap[r]?.map (Obj.shift h.length) := by
  have hlen := hm.length_le
  rw [List.getElem?_append_left (by simp [deepcopy]; omega), getElem?_deepcopy,
    getElem?_module hm hr]

/-- The start of the head node type, a copy of its defaults. -/
theorem started_head (hh : Valid h) (hm : moduleHeap <+: h) :
    Started h true ((deepcopy h HEAD_NODE_DEFAULTS).1 ++ [.dict {}]) (h.length + 2)
      (h.length + 3) := by
  have hvalid := hh.deepcopy HEAD_NODE_DEFAULTS
  have hlen := hm.length_le
  have hresult := getElem?_copied hm (r := 2) (by decide) HEAD_NODE_DEFAULTS [.dict {}]
  have hnodeConfig := getElem?_copied hm (r := 3) (by decide) HEAD_NODE_DEFAULTS [.dict {}]
  refine ⟨hvalid.append ?_, ⟨h.map (Obj.shift h.length) ++ [.dict {}], by simp [deepcopy]⟩,
    by omega, hresult, by omega, by omega, ⟨_, hnodeConfig⟩, fun p r hp => ?_, ?_⟩
  · simpa using wf_empty
  · refine ident_of_atoms hnodeConfig (fun v hv => ?_) hp
    exact ⟨.str "ray-on-golem-heads", by simpa [Dict.values, Dict.mapValues, Value.shift] using hv⟩
  · have hcopy : view ((deepcopy h HEAD_NODE_DEFAULTS).1 ++ [.dict {}]) (.ref (h.length + 3)) =
        (view h (.ref 3)).map (h.length + ·) := by
      rw [← view_deepcopy h (.ref 3) HEAD_NODE_DEFAULTS]
      refine view_append hvalid ?_ _
      simp [Value.Live, deepcopy]
      simp [moduleHeap] at hlen
      omega
    have hchild : child moduleHeap HEAD_NODE_DEFAULTS (.key "node_config") = some (.ref 3) := rfl
    have hdefaults : headDefaults.sub (.key "node_config") = (view moduleHeap (.ref 3)).erase := by
      rw [headDefaults, View.erase, View.map_sub, sub_view hchild]
      rfl
    rw [hcopy, View.erase_map, view_module hm (by decide), startNodeConfig, if_pos rfl,
      hdefaults]

theorem Started.of_append {h₁ : Heap} {head : Bool} {result nodeConfig : Nat}
    (hs : Started h₁ head h' result nodeConfig) (hgrows : h <+: h₁) :
    Started h head h' result nodeConfig :=
  { hs with
    grows := hgrows.trans hs.grows
    result_new := hgrows.length_le.trans hs.result_new
    nodeConfig_new := hgrows.length_le.trans hs.nodeConfig_new }

/-- The test for the head node type. -/
def isHead (d : Dict Scalar Value) (name : Scalar) : Bool :=
  equalsKey name ((d.get "head_node_type").getD (text "ray.head.default"))

theorem startResult_eq (name : Scalar) (hh : Valid h) (hm : moduleHeap <+: h)
    (hd : h[c]? = some (.dict d)) :
    ∃ h' result nodeConfig,
      startResult (.ref c) h name = some (h', .ref result, .ref nodeConfig) ∧
        Started h (isHead d name) h' result nodeConfig := by
  have hvalid : Valid (h ++ [.dict {}] : Heap) := hh.append (by simpa using wf_empty)
  have hd' : (h ++ [.dict {}] : Heap)[c]? = some (.dict d) := by
    rw [List.getElem?_append_left (List.getElem?_eq_some_iff.mp hd).1, hd]
  have hget := getDefault_dict hd' "head_node_type" (text "ray.head.default")
  have htest : equalsKey name ((d.get "head_node_type").getD (text "ray.head.default")) =
      isHead d name := rfl
  cases hhead : isHead d name with
  | true =>
      have hstarted := (started_head hvalid (hm.trans (List.prefix_append _ _))).of_append
        (List.prefix_append h _)
      refine ⟨_, _, _, ?_, hstarted⟩
      simp only [startResult, alloc, hget, Option.bind_eq_bind, Option.bind_some,
        htest, hhead, if_true]
      have hfound := setdefault_found hstarted.result_eq (k := Scalar.str "node_config") rfl
        (.ref ((deepcopy (h ++ [.dict {}]) HEAD_NODE_DEFAULTS).1).length)
      exact congrArg (Option.bind · _) hfound
  | false =>
      refine ⟨_, _, _, ?_, started_ordinary hh⟩
      simp only [startResult, alloc, hget, Option.bind_eq_bind, Option.bind_some,
        htest, hhead, Bool.false_eq_true, if_false]
      have hnew := setdefault_new (h := (h ++ [.dict {}] ++ [.dict {}] : Heap)) (r := h.length)
        (d := {}) (k := Scalar.str "node_config") (by simp) rfl
        (.ref (h ++ [.dict {}] : Heap).length)
      rw [hnew]
      simp
      rfl

/-! ### The two merges -/

theorem lowerNodeConfig_dict {start providerNodeConfig : Plain}
    (hdict : providerNodeConfig [] = some (.dict ())) :
    lowerNodeConfig start providerNodeConfig = start.merge providerNodeConfig := by
  simp [lowerNodeConfig, hdict]

theorem lowerNodeConfig_other {start : Plain} {w : Value} (hw : ∀ r, node h w ≠ .dict r) :
    lowerNodeConfig start (view h w).erase = start := by
  have hroot : (view h w).erase [] = some ((node h w).map fun _ => ()) := rfl
  rw [lowerNodeConfig, hroot]
  rcases hnode : node h w with a | r | ⟨r, n⟩
  · rfl
  · exact absurd hnode (hw r)
  · rfl

/-- A result whose `node_config` has `content` and consists of new containers only. -/
structure Built (h : Heap) (content : Plain) (h' : Heap) (result nodeConfig : Nat) : Prop where
  valid : Valid h'
  grows : h.length ≤ h'.length
  frame : ∀ r < h.length, h'[r]? = h[r]?
  result_new : h.length ≤ result
  result_lt : result < h'.length
  result_eq : h'[result]? = some (.dict ⟨[("node_config", .ref nodeConfig)]⟩)
  isDict : ∃ e, h'[nodeConfig]? = some (.dict e)
  fresh : ∀ r, (view h' (.ref nodeConfig)).Has r → h.length ≤ r ∧ r < h'.length ∧ r ≠ result
  unshared : (view h' (.ref nodeConfig)).Unshared
  content : (view h' (.ref nodeConfig)).erase = content

variable {head : Bool} {result nodeConfig : Nat}

theorem Started.built (hs : Started h head h' result nodeConfig) :
    Built h (startNodeConfig head) h' result nodeConfig := by
  have hroot : ∀ r, (view h' (.ref nodeConfig)).Has r → nodeConfig = r := by
    rintro r ⟨p, hp⟩
    obtain rfl := hs.alone p r hp
    simpa [ident_view, find] using hp
  obtain ⟨e, he⟩ := hs.isDict
  refine ⟨hs.valid, hs.grows.length_le, fun r hr => ?_, hs.result_new,
    (List.getElem?_eq_some_iff.mp hs.result_eq).1, hs.result_eq, hs.isDict, fun r hr => ?_,
    fun p r hp q hq => ?_, hs.content⟩
  · obtain ⟨l, rfl⟩ := hs.grows
    exact List.getElem?_append_left hr
  · obtain rfl := hroot r hr
    exact ⟨hs.nodeConfig_new, (List.getElem?_eq_some_iff.mp he).1, hs.result_ne.symm⟩
  · rw [hs.alone p r hp, hs.alone q r hq]

/-- New objects change nothing. -/
theorem Built.append {content : Plain} (hb : Built h content h' result nodeConfig)
    {l : List (Obj Scalar Scalar)} (hvalid : Valid (h' ++ l)) :
    Built h content (h' ++ l) result nodeConfig := by
  obtain ⟨e, he⟩ := hb.isDict
  have hlt := (List.getElem?_eq_some_iff.mp he).1
  have hview : view (h' ++ l) (.ref nodeConfig) = view h' (.ref nodeConfig) :=
    view_append (v := .ref nodeConfig) hb.valid hlt l
  have hlen : h'.length ≤ (h' ++ l).length := by simp
  refine ⟨hvalid, hb.grows.trans hlen, fun r hr => ?_, hb.result_new, ?_, ?_, ⟨e, ?_⟩,
    fun r hr => ?_, hview ▸ hb.unshared, hview ▸ hb.content⟩
  · rw [List.getElem?_append_left (Nat.lt_of_lt_of_le hr hb.grows), hb.frame r hr]
  · exact Nat.lt_of_lt_of_le hb.result_lt hlen
  · rw [List.getElem?_append_left hb.result_lt, hb.result_eq]
  · rw [List.getElem?_append_left hlt, he]
  · obtain ⟨h₁, h₂, h₃⟩ := hb.fresh r (hview ▸ hr)
    exact ⟨h₁, Nat.lt_of_lt_of_le h₂ hlen, h₃⟩

/-- Another dictionary merged into the `node_config`. -/
theorem Built.merged {content : Plain} {h'' : Heap} {s : Nat}
    (hb : Built h content h' result nodeConfig) (hm : Mergeable h' nodeConfig s)
    (hd : Merged h' nodeConfig s h'') (hu : (view h' (.ref s)).Unshared)
    (hfresh : ∀ r, (view h' (.ref s)).Has r → h.length ≤ r ∧ r < h'.length ∧ r ≠ result) :
    Built h (content.merge (view h' (.ref s)).erase) h'' result nodeConfig := by
  obtain ⟨e, he⟩ := hb.isDict
  obtain ⟨e', he'⟩ := hm.source
  have hold : ∀ r < h.length, ¬ (view h' (.ref nodeConfig)).Has r := fun r hr hin => by
    have hge := (hb.fresh r hin).1
    omega
  have hlt : ∀ r, r < h'.length → r < h''.length := fun r hr => Nat.lt_of_lt_of_le hr hd.grows
  have hroot : view h'' (.ref nodeConfig) [] = some (.dict nodeConfig) := by
    rw [hd.merged, View.merge_nil_dict (view_dict_nil he) (view_dict_nil he')]
  refine ⟨hd.valid, hb.grows.trans hd.grows, fun r hr => ?_, hb.result_new, hlt _ hb.result_lt,
    ?_, (view_eq_dict_iff.mp hroot).2, fun r hr => ?_, ?_, ?_⟩
  · rw [hd.frame r (Nat.lt_of_lt_of_le hr hb.grows) (hold r hr), hb.frame r hr]
  · have hout : ¬ (view h' (.ref nodeConfig)).Has result := fun hin => (hb.fresh _ hin).2.2 rfl
    rw [hd.frame result hb.result_lt hout, hb.result_eq]
  · rw [hd.merged] at hr
    obtain ⟨hge, hr', hne⟩ := hr.of_merge.elim (hb.fresh r) (hfresh r)
    exact ⟨hge, hlt r hr', hne⟩
  · rw [hd.merged]
    exact View.unshared_merge hb.unshared hu hm.apart
  · rw [hd.merged, View.erase, View.map_merge, ← hb.content]
    rfl

variable {merge : Heap → Value → Value → Option Heap} {reads : Scalar → Prop} {Q : Prop}

/-- The copy of a dictionary can be merged into the new `node_config`. -/
theorem Started.copied (hs : Started h head h' result nodeConfig) (hh : Valid h)
    {e : Dict Scalar Value} (he : h[r]? = some (.dict e)) :
    Mergeable (deepcopy h' (.ref r)).1 nodeConfig (h'.length + r) ∧
      view (deepcopy h' (.ref r)).1 (.ref (h'.length + r)) =
        (view h (.ref r)).map (h'.length + ·) := by
  have hb : Built h (startNodeConfig head) (deepcopy h' (.ref r)).1 result nodeConfig :=
    hs.built.append (hs.valid.deepcopy (.ref r))
  have hr : r < h.length := (List.getElem?_eq_some_iff.mp he).1
  have hsame : view h' (.ref r) = view h (.ref r) := by
    obtain ⟨l, rfl⟩ := hs.grows
    exact view_append (v := .ref r) hh hr l
  have hcopy : view (deepcopy h' (.ref r)).1 (.ref (h'.length + r)) =
      (view h (.ref r)).map (h'.length + ·) := hsame ▸ view_deepcopy h' (.ref r) (.ref r)
  have hsource : (deepcopy h' (.ref r)).1[h'.length + r]? =
      some (.dict (e.mapValues (Value.shift h'.length))) := by
    rw [getElem?_deepcopy, hs.built.frame r hr, he]
    rfl
  have hold : view (deepcopy h' (.ref r)).1 (.ref nodeConfig) = view h' (.ref nodeConfig) := by
    obtain ⟨e', he'⟩ := hs.isDict
    exact view_append (v := .ref nodeConfig) hs.valid (List.getElem?_eq_some_iff.mp he').1 _
  refine ⟨⟨hb.valid, hb.isDict, ⟨_, hsource⟩, hb.unshared, fun x hx hx' => ?_⟩, hcopy⟩
  have hlt := (hs.built.fresh x (hold ▸ hx)).2.1
  obtain ⟨y, -, rfl⟩ := View.Has.of_map (hcopy ▸ hx')
  omega

/-- The provider's `node_config` merged into the start, if it is a dictionary. -/
theorem Started.mergesProvider (hmerge : DeepMerges reads (acceptsKey · = true) merge)
    (hs : Started h head h' result nodeConfig) (hh : Valid h) {providerNodeConfig : Value}
    (hlive : providerNodeConfig.Live h.length) (hu : (view h providerNodeConfig).Unshared)
    (hreads : KeysIn reads (view h providerNodeConfig))
    (hkeys : Q → (∃ r, node h providerNodeConfig = .dict r) ∧
      KeysIn (acceptsKey · = true) (view h providerNodeConfig)) :
    Ends Q (merge (deepcopy h' providerNodeConfig).1 (.ref nodeConfig)
        (deepcopy h' providerNodeConfig).2) fun h'' =>
      Built h (lowerNodeConfig (startNodeConfig head) (view h providerNodeConfig).erase) h''
        result nodeConfig := by
  by_cases hdict : ∃ r, node h providerNodeConfig = .dict r
  · obtain ⟨r, hr⟩ := hdict
    obtain ⟨rfl, e, he⟩ := node_eq_dict_iff.mp hr
    have hb : Built h (startNodeConfig head) (deepcopy h' (.ref r)).1 result nodeConfig :=
      hs.built.append (hs.valid.deepcopy (.ref r))
    obtain ⟨hm, hcopy⟩ := hs.copied hh he
    obtain ⟨e', he'⟩ := hm.source
    have hlive : (Value.ref (h'.length + r) : Value).Live (deepcopy h' (.ref r)).1.length :=
      (List.getElem?_eq_some_iff.mp he').1
    have hunshared : (view (deepcopy h' (.ref r)).1 (.ref (h'.length + r))).Unshared :=
      hcopy ▸ hu.map fun x y hxy => by simpa using hxy
    have hfresh : ∀ x, (view (deepcopy h' (.ref r)).1 (.ref (h'.length + r))).Has x →
        h.length ≤ x ∧ x < (deepcopy h' (.ref r)).1.length ∧ x ≠ result := fun x hx => by
      have hlt := hm.valid.has_lt hlive hx
      have hresult := hs.built.result_lt
      have hgrows := hs.grows.length_le
      obtain ⟨y, -, rfl⟩ := View.Has.of_map (hcopy ▸ hx)
      exact ⟨by omega, hlt, by omega⟩
    have hends := (hmerge.dicts _ _ _ hm (hcopy ▸ hreads.map (h'.length + ·))).weaken
      fun hq : Q => hcopy ▸ (hkeys hq).2.map (h'.length + ·)
    refine hends.mono fun h'' hd => ?_
    have hdone := hb.merged hm hd hunshared hfresh
    rw [hcopy, View.erase_map] at hdone
    rw [lowerNodeConfig_dict (by simp [View.erase, view_dict_nil he, Node.map])]
    exact hdone
  · have hother : ∀ r, node h providerNodeConfig ≠ .dict r := fun r hr => hdict ⟨r, hr⟩
    have hsame : node h' providerNodeConfig = node h providerNodeConfig := by
      obtain ⟨l, rfl⟩ := hs.grows
      refine node_congr fun r hr => ?_
      subst hr
      exact List.getElem?_append_left hlive
    have hcopied : ∀ r, node (deepcopy h' providerNodeConfig).1 (deepcopy h' providerNodeConfig).2 ≠
        .dict r := fun r hr => by
      have hnode := node_deepcopy h' providerNodeConfig providerNodeConfig
      rw [hsame] at hnode
      rcases hn : node h providerNodeConfig with a | x | ⟨x, n⟩
      · cases hr.symm.trans (hnode.trans (by rw [hn]))
      · exact hother x hn
      · cases hr.symm.trans (hnode.trans (by rw [hn]))
    rcases hmerge.others _ (.ref nodeConfig) _ hcopied with hnone | hsome
    · rw [hnone]
      exact fun hq => hdict (hkeys hq).1
    · rw [hsome, lowerNodeConfig_other hother]
      exact hs.built.append (hs.valid.deepcopy providerNodeConfig)

/-- What the loop does to a node type: it gets a new `node_config`, and nothing else changes. -/
structure Resolved (h : Heap) (nodeType : Nat) (e : Dict Scalar Value) (own : Nat)
    (content : Plain) (h' : Heap) : Prop where
  valid : Valid h'
  grows : h.length ≤ h'.length
  frame : ∀ r < h.length, r ≠ nodeType → h'[r]? = h[r]?
  changed : ∃ nodeConfig,
    h'[nodeType]? = some (.dict (e.set "node_config" (.ref nodeConfig))) ∧
      (view h' (.ref nodeConfig)).erase = content ∧
      ∀ r, (view h' (.ref nodeConfig)).Has r → h.length ≤ r ∨ (view h (.ref own)).Has r

/-- A result whose `node_config` shares with the node type's own one only. -/
structure OwnMerged (h : Heap) (own : Nat) (content : Plain) (h' : Heap)
    (result nodeConfig : Nat) : Prop where
  valid : Valid h'
  grows : h.length ≤ h'.length
  frame : ∀ r < h.length, h'[r]? = h[r]?
  result_eq : h'[result]? = some (.dict ⟨[("node_config", .ref nodeConfig)]⟩)
  live : nodeConfig < h'.length
  fresh : ∀ r, (view h' (.ref nodeConfig)).Has r → h.length ≤ r ∨ (view h (.ref own)).Has r
  content : (view h' (.ref nodeConfig)).erase = content

/-- The node type's own `node_config` merged. -/
theorem Built.mergesOwn (hmerge : DeepMerges reads (acceptsKey · = true) merge) {content : Plain}
    (hb : Built h content h' result nodeConfig) (hh : Valid h) {own : Nat}
    {e : Dict Scalar Value} (hown : h[own]? = some (.dict e))
    (hreads : KeysIn reads (view h (.ref own)))
    (hkeys : Q → KeysIn (acceptsKey · = true) (view h (.ref own))) :
    Ends Q (merge h' (.ref nodeConfig) (.ref own)) fun h'' =>
      OwnMerged h own (content.merge (view h (.ref own)).erase) h'' result nodeConfig := by
  have hownlt : own < h.length := (List.getElem?_eq_some_iff.mp hown).1
  have hownsame : view h' (.ref own) = view h (.ref own) :=
    view_congr fun r hr => hb.frame r (hh.has_lt (v := .ref own) hownlt hr)
  have hold : ∀ r < h.length, ¬ (view h' (.ref nodeConfig)).Has r := fun r hr hin => by
    have hge := (hb.fresh r hin).1
    omega
  have hm : Mergeable h' nodeConfig own := by
    refine ⟨hb.valid, hb.isDict, ⟨e, (hb.frame own hownlt).trans hown⟩, hb.unshared, ?_⟩
    intro r hr hr'
    exact hold r (hh.has_lt (v := .ref own) hownlt (hownsame ▸ hr')) hr
  have hends := (hmerge.dicts _ _ _ hm (hownsame ▸ hreads)).weaken fun hq => hownsame ▸ hkeys hq
  refine hends.mono fun h'' hd => ?_
  obtain ⟨e', he'⟩ := hb.isDict
  refine ⟨hd.valid, hb.grows.trans hd.grows, fun r hr => ?_, ?_,
    Nat.lt_of_lt_of_le (List.getElem?_eq_some_iff.mp he').1 hd.grows, fun r hr => ?_, ?_⟩
  · rw [hd.frame r (Nat.lt_of_lt_of_le hr hb.grows) (hold r hr), hb.frame r hr]
  · have hout : ¬ (view h' (.ref nodeConfig)).Has result := fun hin => (hb.fresh _ hin).2.2 rfl
    rw [hd.frame result hb.result_lt hout, hb.result_eq]
  · rw [hd.merged, hownsame] at hr
    exact hr.of_merge.imp_left fun hin => (hb.fresh r hin).1
  · rw [hd.merged, hownsame, View.erase, View.map_merge, ← hb.content]
    rfl

/-- The result assigned to the node type. -/
theorem OwnMerged.assigned {content : Plain} {own nodeType : Nat} {e : Dict Scalar Value}
    (ho : OwnMerged h own content h' result nodeConfig) (hnodeType : h[nodeType]? = some (.dict e))
    (houtside : ¬ (view h (.ref own)).Has nodeType) :
    ∃ h'', update h' (.ref nodeType) (.ref result) = some h'' ∧
      Resolved h nodeType e own content h'' := by
  have hlt : nodeType < h.length := (List.getElem?_eq_some_iff.mp hnodeType).1
  have htype : h'[nodeType]? = some (.dict e) := (ho.frame nodeType hlt).trans hnodeType
  have hupdate : update h' (.ref nodeType) (.ref result) =
      some (h'.set nodeType (.dict (e.set "node_config" (.ref nodeConfig)))) := by
    simp [update, dictOf, htype, ho.result_eq, Dict.update, Dict.setAll_cons]
  have ha := assigned_set ho.valid htype (w := .ref nodeConfig) ho.live (.str "node_config")
  refine ⟨_, hupdate, ?_⟩
  generalize h'.set nodeType _ = h'' at ha ⊢
  have hsame : view h'' (.ref nodeConfig) = view h' (.ref nodeConfig) := by
    refine view_congr fun r hr => ha.other r fun heq => ?_
    rcases ho.fresh r hr with hge | hin
    · omega
    · exact houtside (heq ▸ hin)
  exact ⟨ha.valid, ha.length ▸ ho.grows, fun r hr hne => (ha.other r hne).trans (ho.frame r hr),
    nodeConfig, ha.self, hsame ▸ ho.content, fun r hr => ho.fresh r (hsame ▸ hr)⟩

/-- **One node type** gets its resolved `node_config`. -/
theorem resolveNodeType_ends (name : Scalar)
    (hmerge : DeepMerges reads (acceptsKey · = true) merge) (hh : Valid h) (hm : moduleHeap <+: h)
    (hc : h[c]? = some (.dict d)) {providerNodeConfig : Value}
    (hfind : find h (.ref c) [.key "provider", .key "parameters", .key "node_config"] =
      some providerNodeConfig)
    (hu : (view h providerNodeConfig).Unshared)
    (hreads : KeysIn reads (view h providerNodeConfig))
    (hkeys : Q → (∃ r, node h providerNodeConfig = .dict r) ∧
      KeysIn (acceptsKey · = true) (view h providerNodeConfig))
    {nodeType own : Nat} {e e' : Dict Scalar Value} (hnodeType : h[nodeType]? = some (.dict e))
    (hget : e.get "node_config" = some (.ref own)) (hown : h[own]? = some (.dict e'))
    (houtside : ¬ (view h (.ref own)).Has nodeType)
    (hownReads : KeysIn reads (view h (.ref own)))
    (hownKeys : Q → KeysIn (acceptsKey · = true) (view h (.ref own))) :
    Ends Q (resolveNodeType merge (.ref c) h name (.ref nodeType))
      (Resolved h nodeType e own (resolvedNodeConfig (startNodeConfig (isHead d name))
        (view h providerNodeConfig).erase (view h (.ref own)).erase)) := by
  obtain ⟨h', result, nodeConfig, hstart, hs⟩ := startResult_eq name hh hm hc
  have hclive : (Value.ref c : Value).Live h.length := (List.getElem?_eq_some_iff.mp hc).1
  have hfind' : find h' (.ref c) [.key "provider", .key "parameters", .key "node_config"] =
      some providerNodeConfig := by
    rw [find_congr fun r hr => hs.built.frame r (hh.has_lt hclive hr), hfind]
  obtain ⟨provider, hprovider, hrest⟩ := getItem_of_find hfind'
  obtain ⟨parameters, hparameters, hrest⟩ := getItem_of_find hrest
  obtain ⟨_, hnodeConfig, hrest⟩ := getItem_of_find hrest
  obtain rfl := Option.some.inj hrest
  simp only [resolveNodeType, hstart, hprovider, hparameters, hnodeConfig, Option.bind_eq_bind,
    Option.bind_some]
  have hends := hs.mergesProvider hmerge hh (hh.find hclive hfind) hu hreads hkeys
  refine Ends.bind hends fun h'' hb => ?_
  have htypelt : nodeType < h.length := (List.getElem?_eq_some_iff.mp hnodeType).1
  have hresult := getItem_dict hb.result_eq "node_config"
  have hownItem := getItem_dict ((hb.frame nodeType htypelt).trans hnodeType) "node_config"
  have hfirst : Dict.get (⟨[("node_config", .ref nodeConfig)]⟩ : Dict Scalar Value)
      "node_config" = some (.ref nodeConfig) := rfl
  simp only [hresult, hownItem, hget, hfirst, Option.bind_some]
  refine Ends.bind (hb.mergesOwn hmerge hh hown hownReads hownKeys) fun h₃ ho => ?_
  obtain ⟨h₄, hupdate, hresolved⟩ := ho.assigned hnodeType houtside
  rw [hupdate]
  exact hresolved

end ConfigDefaults
