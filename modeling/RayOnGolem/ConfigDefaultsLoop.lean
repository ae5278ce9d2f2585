import RayOnGolem.ConfigDefaultsNodeType

/-!
# Config defaults: the loop over the node types

`LoopInv` says what the config is after some node types have been resolved: the config at
the start of the loop, where these node types have their resolved `node_config`
(`withNodeConfigs`).  It holds for a config in which the dictionaries that the loop changes
occur once (`LoopReady`), is kept by the body of the loop (`LoopInv.step`), and so gives the
config after the loop (`resolveNodeTypes_ends`).
-/

namespace ConfigDefaults

open PyHeap PathView

/-! ### Node types by path -/

def parametersPath : List (Seg Scalar) := [.key "provider", .key "parameters"]

def providerNodeConfigPath : List (Seg Scalar) :=
  [.key "provider", .key "parameters", .key "node_config"]

def nodeTypePath (name : Scalar) : List (Seg Scalar) := [.key "available_node_types", .key name]

def nodeConfigPath (name : Scalar) : List (Seg Scalar) :=
  [.key "available_node_types", .key name, .key "node_config"]

/-- The config where the node types with `p` have the `node_config` that `f` gives. -/
def withNodeConfigs {ρ : Type} (p : Scalar → Bool) (f : Scalar → View Scalar Scalar ρ)
    (v : View Scalar Scalar ρ) : View Scalar Scalar ρ
  | s :: .key name :: t :: q =>
      if s = .key "available_node_types" ∧ t = .key "node_config" ∧ p name then f name q
      else v (s :: .key name :: t :: q)
  | q => v q

section WithNodeConfigs

variable {ρ : Type} {p : Scalar → Bool} {f : Scalar → View Scalar Scalar ρ}
  {v w : View Scalar Scalar ρ} {name : Scalar} {q : List (Seg Scalar)}

theorem withNodeConfigs_self (hp : p name = true) (q : List (Seg Scalar)) :
    withNodeConfigs p f v (nodeConfigPath name ++ q) = f name q := by
  simp [withNodeConfigs, nodeConfigPath, hp]

theorem withNodeConfigs_other (hq : ∀ name, p name = true → ¬ nodeConfigPath name <+: q) :
    withNodeConfigs p f v q = v q := by
  unfold withNodeConfigs
  split
  · rename_i s name t q
    split
    · rename_i hcond
      obtain ⟨rfl, rfl, hp⟩ := hcond
      exact absurd ⟨q, rfl⟩ (hq name hp)
    · rfl
  · rfl

/-- One more node type. -/
theorem setAt_withNodeConfigs :
    (withNodeConfigs p f v).setAt w (nodeConfigPath name) =
      withNodeConfigs (fun n => n = name || p n) (Function.update f name w) v := by
  funext q
  by_cases hq : nodeConfigPath name <+: q
  · obtain ⟨q, rfl⟩ := hq
    rw [View.setAt_append, withNodeConfigs_self (by simp), Function.update_self]
  · rw [View.setAt_of_outside hq]
    by_cases hother : ∃ n, p n = true ∧ nodeConfigPath n <+: q
    · obtain ⟨n, hn, q, rfl⟩ := hother
      have hne : n ≠ name := by
        rintro rfl
        exact hq (List.prefix_append _ _)
      rw [withNodeConfigs_self hn, withNodeConfigs_self (by simp [hn]),
        Function.update_of_ne hne]
    · rw [withNodeConfigs_other fun n hn hpre => hother ⟨n, hn, hpre⟩,
        withNodeConfigs_other fun n hn hpre => ?_]
      rcases Bool.or_eq_true_iff.mp hn with heq | hn
      · obtain rfl : n = name := by simpa using heq
        exact hq hpre
      · exact hother ⟨n, hn, hpre⟩

theorem map_withNodeConfigs {σ : Type} (g : ρ → σ) :
    (withNodeConfigs p f v).map g = withNodeConfigs p (fun n => (f n).map g) (v.map g) := by
  funext q
  by_cases hother : ∃ n, p n = true ∧ nodeConfigPath n <+: q
  · obtain ⟨n, hn, q, rfl⟩ := hother
    rw [View.map_apply, withNodeConfigs_self hn, withNodeConfigs_self hn, View.map_apply]
  · have hout := fun n (hn : p n = true) hpre => hother ⟨n, hn, hpre⟩
    rw [View.map_apply, withNodeConfigs_other hout, withNodeConfigs_other hout, View.map_apply]

/-- Where a container occurs among resolved node types. -/
theorem ident_withNodeConfigs {r : ρ} (h : (withNodeConfigs p f v).ident q = some r) :
    (∃ n q', p n = true ∧ q = nodeConfigPath n ++ q' ∧ (f n).ident q' = some r) ∨
      v.ident q = some r := by
  by_cases hother : ∃ n, p n = true ∧ nodeConfigPath n <+: q
  · obtain ⟨n, hn, q, rfl⟩ := hother
    rw [View.ident, withNodeConfigs_self hn] at h
    exact .inl ⟨n, q, hn, rfl, h⟩
  · rw [View.ident, withNodeConfigs_other fun n hn hpre => hother ⟨n, hn, hpre⟩] at h
    exact .inr h

end WithNodeConfigs

/-! ### The loop -/

/-- The head node type of a config. -/
def headNodeType (v : Plain) : Node Scalar Unit :=
  (v [.key "head_node_type"]).getD (.atom "ray.head.default")

/-- The test for the head node type. -/
def isHeadNodeType (v : Plain) (name : Scalar) : Bool :=
  match headNodeType v with
  | .atom s => name.equals s
  | .dict _ | .list _ _ => false

/-- The `node_config` that the loop gives a node type. -/
def loopNodeConfig (v : Plain) (name : Scalar) : Plain :=
  resolvedNodeConfig (startNodeConfig (isHeadNodeType v name))
    (v.under providerNodeConfigPath) (v.under (nodeConfigPath name))

/-- A dictionary that stands at one path of a value only. -/
def Owned (h : Heap) (v : Value) (p : List (Seg Scalar)) : Prop :=
  ∃ r, view h v p = some (.dict r) ∧ (view h v).Sole p r

/-- What the loop over the node types relies on. -/
structure LoopReady (h : Heap) (c : Nat) : Prop where
  valid : Valid h
  defaults : moduleHeap <+: h
  config : Owned h (.ref c) []
  fresh : ∀ r, (view h (.ref c)).Has r → moduleHeap.length ≤ r
  providerNodeConfig : view h (.ref c) providerNodeConfigPath ≠ none
  unshared : ((view h (.ref c)).under providerNodeConfigPath).Unshared
  nodeTypes : ∀ x, view h (.ref c) [.key "available_node_types"] = some x → ∃ r, x = .dict r
  nodeType : ∀ name, view h (.ref c) (nodeTypePath name) ≠ none →
    Owned h (.ref c) (nodeTypePath name) ∧
      ∃ r, view h (.ref c) (nodeConfigPath name) = some (.dict r)

/-- The keys that the merges into a node type's new `node_config` find. -/
def MergeKeys (p : Scalar → Prop) (h : Heap) (c : Nat) (name : Scalar) : Prop :=
  KeysIn p ((view h (.ref c)).under providerNodeConfigPath) ∧
    KeysIn p ((view h (.ref c)).under (nodeConfigPath name))

/-- What keeps the merges into a node type's new `node_config` from raising. -/
def MergeAccepts (h : Heap) (c : Nat) (name : Scalar) : Prop :=
  (∃ r, view h (.ref c) providerNodeConfigPath = some (.dict r)) ∧
    MergeKeys (acceptsKey · = true) h c name

/-- The config when the node types with `done` have been resolved. -/
structure LoopInv (h₀ : Heap) (c : Nat) (done : Scalar → Bool) (h : Heap) : Prop where
  valid : Valid h
  grows : h₀.length ≤ h.length
  frame : ∀ r < h₀.length,
    (∀ name, view h₀ (.ref c) (nodeTypePath name) ≠ some (.dict r)) → h[r]? = h₀[r]?
  resolved : ∃ f : Scalar → View Scalar Scalar Nat,
    view h (.ref c) = withNodeConfigs done f (view h₀ (.ref c)) ∧
      ∀ name, done name = true →
        (f name).erase = loopNodeConfig (view h₀ (.ref c)).erase name ∧
          ∀ r, (f name).Has r →
            h₀.length ≤ r ∨ ((view h₀ (.ref c)).under (nodeConfigPath name)).Has r

variable {h₀ h h' : Heap} {c r : Nat} {done : Scalar → Bool} {name : Scalar}
  {q : List (Seg Scalar)} {v : Value}

theorem has_of_dict (hq : view h v q = some (.dict r)) : (view h v).Has r :=
  ⟨q, ident_view.mpr (view_eq_dict_iff.mp hq).1⟩

/-- The config is a dictionary. -/
theorem Owned.root (ho : Owned h (.ref c) []) : ∃ d, h[c]? = some (.dict d) := by
  obtain ⟨r, hr, -⟩ := ho
  obtain ⟨hfind, d, hd⟩ := view_eq_dict_iff.mp hr
  obtain rfl : c = r := by simpa [find] using hfind
  exact ⟨d, hd⟩

theorem Owned.live (ho : Owned h (.ref c) []) : (Value.ref c : Value).Live h.length := by
  obtain ⟨d, hd⟩ := ho.root
  exact (List.getElem?_eq_some_iff.mp hd).1

theorem LoopReady.live (hl : LoopReady h₀ c) : (Value.ref c : Value).Live h₀.length :=
  hl.config.live

theorem LoopReady.loopInv (hl : LoopReady h c) : LoopInv h c (fun _ => false) h :=
  ⟨hl.valid, le_refl _, fun _ _ _ => rfl, fun _ => View.nothing, by
    funext q
    rw [withNodeConfigs_other (by simp)], by simp⟩

/-- What is not below a resolved `node_config` is as it was. -/
theorem LoopInv.view_other (hi : LoopInv h₀ c done h)
    (hq : ∀ name, done name = true → ¬ nodeConfigPath name <+: q) :
    view h (.ref c) q = view h₀ (.ref c) q := by
  obtain ⟨f, hf, -⟩ := hi.resolved
  rw [hf, withNodeConfigs_other hq]

theorem LoopInv.under_other (hi : LoopInv h₀ c done h)
    (hq : ∀ name q', done name = true → ¬ nodeConfigPath name <+: q ++ q') :
    (view h (.ref c)).under q = (view h₀ (.ref c)).under q := by
  funext q'
  exact hi.view_other fun name hname => hq name q' hname

/-- An object of the config that is not below a `node_config` stays where it is. -/
theorem LoopInv.sole (hi : LoopInv h₀ c done h) (hr : r < h₀.length)
    (hs : (view h₀ (.ref c)).Sole q r) (hq : ∀ name, ¬ nodeConfigPath name <+: q) :
    (view h (.ref c)).Sole q r := by
  obtain ⟨f, hf, hcontent⟩ := hi.resolved
  intro q' hq'
  rw [hf] at hq'
  rcases ident_withNodeConfigs hq' with ⟨n, q'', hn, -, hin⟩ | hold
  · rcases (hcontent n hn).2 r ⟨_, hin⟩ with hge | ⟨q₂, hq₂⟩
    · omega
    · exact absurd ⟨q₂, hs _ hq₂⟩ (hq n)
  · exact hs q' hold

theorem LoopInv.owned (hi : LoopInv h₀ c done h) (hl : LoopReady h₀ c)
    (ho : Owned h₀ (.ref c) q) (hq : ∀ name, ¬ nodeConfigPath name <+: q) :
    Owned h (.ref c) q := by
  obtain ⟨r, hr, hs⟩ := ho
  refine ⟨r, (hi.view_other fun name _ => hq name).trans hr, ?_⟩
  exact hi.sole (hl.valid.has_lt hl.live (has_of_dict hr)) hs hq

/-- The defaults of the module are not touched. -/
theorem LoopInv.defaults (hi : LoopInv h₀ c done h) (hl : LoopReady h₀ c) :
    moduleHeap <+: h := by
  refine List.prefix_iff_getElem?.mpr fun r hr => ?_
  have hold : h₀[r]? = some moduleHeap[r] := List.prefix_iff_getElem?.mp hl.defaults r hr
  rw [← hold]
  refine hi.frame r (Nat.lt_of_lt_of_le hr hl.defaults.length_le) fun name hname => ?_
  have hge := hl.fresh r (has_of_dict hname)
  omega

/-- The test for the head node type is as in the beginning. -/
theorem isHead_eq {d : Dict Scalar Value} (hd : h[c]? = some (.dict d)) :
    isHead d name = isHeadNodeType (view h (.ref c)).erase name := by
  have hchild : child h (.ref c) (.key "head_node_type") = d.get "head_node_type" := child_key hd
  rcases hget : d.get "head_node_type" with _ | x
  · have hnone : (view h (.ref c)).erase [.key "head_node_type"] = none := by
      simp [View.erase, view, find_cons, hchild, hget]
    simp [isHead, isHeadNodeType, headNodeType, hget, hnone, equalsKey]
  · have hsome : (view h (.ref c)).erase [.key "head_node_type"] =
        some ((node h x).map fun _ => ()) := by
      simp [View.erase, view, find, hchild, hget]
    simp only [isHead, isHeadNodeType, headNodeType, hget, hsome, Option.getD_some]
    cases x with
    | atom s => rfl
    | ref r =>
        rcases hnode : node h (.ref r) with s | t | ⟨t, n⟩
        · cases node_eq_atom_iff.mp hnode
        · rfl
        · rfl

/-- The objects of a node type that the body of the loop works on. -/
structure NodeTypeObjects (h : Heap) (c : Nat) (name : Scalar) (nodeType own : Nat)
    (e e' : Dict Scalar Value) : Prop where
  found : find h (.ref c) (nodeTypePath name) = some (.ref nodeType)
  sole : (view h (.ref c)).Sole (nodeTypePath name) nodeType
  nodeType_eq : h[nodeType]? = some (.dict e)
  ownFound : find h (.ref c) (nodeConfigPath name) = some (.ref own)
  own_eq : h[own]? = some (.dict e')

section Objects

variable {nodeType own : Nat} {e e' : Dict Scalar Value}

theorem NodeTypeObjects.get (ho : NodeTypeObjects h c name nodeType own e e') :
    e.get "node_config" = some (.ref own) := by
  rw [← getItem_dict ho.nodeType_eq, ← find_key ho.found]
  exact ho.ownFound

/-- The node type is not below its `node_config`. -/
theorem NodeTypeObjects.outside (ho : NodeTypeObjects h c name nodeType own e e') :
    ¬ (view h (.ref own)).Has nodeType := by
  intro hin
  obtain ⟨q, hq⟩ := hin
  rw [← under_view ho.ownFound, View.ident_under] at hq
  have hpath := ho.sole _ hq
  simp [nodeConfigPath, nodeTypePath] at hpath

theorem not_below_other (hn : done name = false) (q : List (Seg Scalar)) :
    ∀ n, done n = true → ¬ nodeConfigPath n <+: nodeConfigPath name ++ q := by
  intro n hdone hpre
  obtain rfl : n = name := by simpa [nodeConfigPath] using hpre
  simp [hdone] at hn

/-- A node type that has not been resolved yet has the objects that it had. -/
theorem LoopInv.objects (hi : LoopInv h₀ c done h) (hl : LoopReady h₀ c)
    (hname : done name = false) (hfind : find h₀ (.ref c) (nodeTypePath name) = some v) :
    ∃ nodeType own e e', v = .ref nodeType ∧
      view h₀ (.ref c) (nodeTypePath name) = some (.dict nodeType) ∧
      NodeTypeObjects h c name nodeType own e e' := by
  have htype : ∀ n, ¬ nodeConfigPath n <+: nodeTypePath name := by
    simp [nodeConfigPath, nodeTypePath]
  obtain ⟨⟨nodeType, hnodeType, hsole⟩, own, hown⟩ := hl.nodeType name (by simp [view, hfind])
  have hlt : nodeType < h₀.length := hl.valid.has_lt hl.live (has_of_dict hnodeType)
  have hv : v = .ref nodeType :=
    Option.some.inj (hfind.symm.trans (view_eq_dict_iff.mp hnodeType).1)
  obtain ⟨hfindType, e, he⟩ := view_eq_dict_iff.mp
    ((hi.view_other fun n _ => htype n).trans hnodeType)
  have hownSame := hi.view_other fun n hn => by simpa using not_below_other hname [] n hn
  obtain ⟨hfindOwn, e', he'⟩ := view_eq_dict_iff.mp (hownSame.trans hown)
  exact ⟨nodeType, own, e, e', hv, hnodeType,
    ⟨hfindType, hi.sole hlt hsole htype, he, hfindOwn, he'⟩⟩

/-- The `node_config` of the provider is as it was. -/
theorem LoopInv.providerNodeConfig (hi : LoopInv h₀ c done h) (hl : LoopReady h₀ c) :
    ∃ w, find h (.ref c) providerNodeConfigPath = some w ∧
      view h₀ (.ref c) providerNodeConfigPath = some (node h w) ∧
      view h w = (view h₀ (.ref c)).under providerNodeConfigPath := by
  have hout : ∀ n q, ¬ nodeConfigPath n <+: providerNodeConfigPath ++ q := by
    simp [nodeConfigPath, providerNodeConfigPath]
  have hunder := hi.under_other (q := providerNodeConfigPath) fun n q _ => hout n q
  have hsame := hi.view_other (q := providerNodeConfigPath) fun n _ => by simpa using hout n []
  obtain ⟨x, hx⟩ := Option.ne_none_iff_exists'.mp hl.providerNodeConfig
  obtain ⟨w, hw, hnode⟩ := Option.map_eq_some_iff.mp (hsame.trans hx)
  exact ⟨w, hw, by rw [hx, hnode], under_view hw ▸ hunder⟩

/-- The test for the head node type is as in the beginning. -/
theorem LoopInv.isHead_eq (hi : LoopInv h₀ c done h) {d : Dict Scalar Value}
    (hd : h[c]? = some (.dict d)) :
    isHead d name = isHeadNodeType (view h₀ (.ref c)).erase name := by
  have hsame := hi.view_other (q := [.key (.str "head_node_type")]) fun n _ => by
    simp [nodeConfigPath]
  have hheadType :
      headNodeType (view h (.ref c)).erase = headNodeType (view h₀ (.ref c)).erase := by
    simp only [headNodeType, View.erase, View.map_apply, hsame]
  rw [ConfigDefaults.isHead_eq hd, isHeadNodeType, hheadType, isHeadNodeType]

/-- The config after a node type got its `node_config`. -/
theorem LoopInv.assigned (hi : LoopInv h₀ c done h) (hl : LoopReady h₀ c)
    (hname : done name = false)
    (hnodeType : view h₀ (.ref c) (nodeTypePath name) = some (.dict nodeType))
    (ho : NodeTypeObjects h c name nodeType own e e')
    (hr : Resolved h nodeType e own (loopNodeConfig (view h₀ (.ref c)).erase name) h') :
    LoopInv h₀ c (fun n => n = name || done n) h' := by
  obtain ⟨nodeConfig, hassigned, hcontent, hfrom⟩ := hr.changed
  obtain ⟨f, hf, hfcontent⟩ := hi.resolved
  have hlive : (Value.ref c : Value).Live h.length := hl.live.mono hi.grows
  have hview := view_assign ho.found ho.sole ho.nodeType_eq hassigned fun r hin hne =>
    hr.frame r (hi.valid.has_lt hlive hin) hne
  have hunder :=
    hi.under_other (q := nodeConfigPath name) fun n q hn => not_below_other hname q n hn
  rw [under_view ho.ownFound] at hunder
  refine ⟨hr.valid, hi.grows.trans hr.grows, fun r hlt hnot => ?_,
    Function.update f name (view h' (.ref nodeConfig)), ?_, fun n hn => ?_⟩
  · have hne : r ≠ nodeType := fun heq => hnot name (heq ▸ hnodeType)
    rw [hr.frame r (Nat.lt_of_lt_of_le hlt hi.grows) hne, hi.frame r hlt hnot]
  · rw [hview, hf]
    exact setAt_withNodeConfigs
  · by_cases hne : n = name
    · subst hne
      rw [Function.update_self]
      refine ⟨hcontent, fun r hin => ?_⟩
      exact (hfrom r hin).imp (hi.grows.trans ·) fun hin => hunder ▸ hin
    · rw [Function.update_of_ne hne]
      exact hfcontent n (by simpa [hne] using hn)

end Objects

/-- **One node type** of the loop. -/
theorem LoopInv.step {merge : Heap → Value → Value → Option Heap} {reads : Scalar → Prop}
    {Q : Prop}
    (hmerge : DeepMerges reads (acceptsKey · = true) merge) (hl : LoopReady h₀ c)
    (hi : LoopInv h₀ c done h) (hname : done name = false)
    (hfind : find h₀ (.ref c) (nodeTypePath name) = some v)
    (hreads : MergeKeys reads h₀ c name) (hkeys : Q → MergeAccepts h₀ c name) :
    Ends Q (resolveNodeType merge (.ref c) h name v)
      (LoopInv h₀ c (fun n => n = name || done n)) := by
  obtain ⟨nodeType, own, e, e', rfl, hnodeType, ho⟩ := hi.objects hl hname hfind
  obtain ⟨w, hw, hnode, hprovider⟩ := hi.providerNodeConfig hl
  obtain ⟨d, hd⟩ := (hi.owned hl hl.config (by simp [nodeConfigPath])).root
  have hown := hi.under_other (q := nodeConfigPath name) fun n q hn => not_below_other hname q n hn
  rw [under_view ho.ownFound] at hown
  have hends := resolveNodeType_ends name hmerge hi.valid (hi.defaults hl) hd hw
    (hprovider ▸ hl.unshared) (hprovider ▸ hreads.1) (fun hq => ?_) ho.nodeType_eq ho.get
    ho.own_eq ho.outside (hown ▸ hreads.2) (fun hq => hown ▸ (hkeys hq).2.2)
  · rw [hi.isHead_eq hd, hprovider, hown] at hends
    exact hends.mono fun h' hr => hi.assigned hl hname hnodeType ho hr
  · obtain ⟨⟨r, hr⟩, hkeysProvider, -⟩ := hkeys hq
    exact ⟨⟨r, Option.some.inj (hnode.symm.trans hr)⟩, hprovider ▸ hkeysProvider⟩

/-- The dictionary of node types is not changed itself. -/
theorem LoopInv.nodeTypes (hi : LoopInv h₀ c done h) (hl : LoopReady h₀ c) {t : Nat}
    {e : Dict Scalar Value} (hfind : find h₀ (.ref c) [.key "available_node_types"] = some (.ref t))
    (he : h₀[t]? = some (.dict e)) : h[t]? = some (.dict e) := by
  rw [hi.frame t (List.getElem?_eq_some_iff.mp he).1 fun name hname => ?_, he]
  obtain ⟨⟨r, hr, hsole⟩, -⟩ := hl.nodeType name (by simp [hname])
  obtain rfl : t = r := by simpa [hname] using hr
  have hpath := hsole _ (ident_view.mpr hfind)
  simp [nodeTypePath] at hpath

/-- **The loop** over the node types. -/
theorem resolveNodeTypes_ends {merge : Heap → Value → Value → Option Heap}
    {reads : Scalar → Prop} {Q : Prop}
    (hmerge : DeepMerges reads (acceptsKey · = true) merge) (hl : LoopReady h₀ c)
    (hi : LoopInv h₀ c done h) {t : Nat} {e : Dict Scalar Value}
    (hfind : find h₀ (.ref c) [.key "available_node_types"] = some (.ref t))
    (he : h₀[t]? = some (.dict e)) {names : List Scalar} (hnames : ∀ name ∈ names, name ∈ e.keys)
    (hnew : ∀ name ∈ names, done name = false) (hnodup : names.Nodup)
    (hreads : ∀ name, MergeKeys reads h₀ c name) (hkeys : Q → ∀ name, MergeAccepts h₀ c name) :
    Ends Q (resolveNodeTypes merge (.ref c) (.ref t) e.keys.length h names)
      (LoopInv h₀ c fun n => n ∈ names || done n) := by
  induction names generalizing h done with
  | nil => simpa [resolveNodeTypes, Ends] using hi
  | cons name names ih =>
      obtain ⟨hfresh, hrest⟩ := List.nodup_cons.mp hnodup
      obtain ⟨hfirst, hnames⟩ := List.forall_mem_cons.mp hnames
      obtain ⟨hnotDone, hnew⟩ := List.forall_mem_cons.mp hnew
      obtain ⟨v, hv⟩ := Option.ne_none_iff_exists'.mp (Dict.mem_keys_iff.mp hfirst)
      have hitem : getItem h (.ref t) name = some v :=
        (getItem_dict (hi.nodeTypes hl hfind he) name).trans hv
      have hpath : find h₀ (.ref c) (nodeTypePath name) = some v := by
        have hstep := find_key (k := name) hfind
        rw [getItem_dict he, hv] at hstep
        exact hstep
      simp only [resolveNodeTypes, hitem, Option.bind_eq_bind, Option.bind_some]
      have hstep := hi.step hmerge hl hnotDone hpath (hreads name) fun hq => hkeys hq name
      refine Ends.bind hstep fun h' hi' => ?_
      have hsize : keys h' (.ref t) = some e.keys := by
        simp [keys, dictOf, hi'.nodeTypes hl hfind he]
      have hloop := ih hi' hnames (fun n hn => ?_) hrest
      · simp only [hsize, Option.bind_some, if_true]
        refine hloop.mono fun h'' hi'' => ?_
        have hdone : (fun n => decide (n ∈ names) || (decide (n = name) || done n)) =
            fun n => decide (n ∈ name :: names) || done n := by
          funext n
          simp [Bool.or_left_comm, Bool.or_assoc]
        exact hdone ▸ hi''
      · have hne : n ≠ name := fun heq => hfresh (heq ▸ hn)
        simp [hne, hnew n hn]

end ConfigDefaults
