import RayOnGolem.ConfigDefaultsSsh

/-!
# Config defaults: the layers

The `node_config` of each node type after `_apply_config_defaults` is its layers one over the
other (`layers`): the defaults of the head node type, those of the provider, the `node_config`
of the provider and that of the node type.

`resolved` is the config after the call, as a function of the config before it.
-/

namespace ConfigDefaults

open PyHeap PathView

/-- The layer that the head node type has under the others. -/
def headLayer (head : Bool) : List Plain :=
  if head then [headDefaults.sub (.key "node_config")] else []

/-- The layers of a `node_config`, the lowest first; a `node_config` of the provider that is no
dictionary is no layer, and takes its default with it. -/
def layers (v : Plain) (name : Scalar) : List Plain :=
  headLayer (isHeadNodeType v name) ++
    (match v providerNodeConfigPath with
      | some (.atom _) | some (.list _ _) => []
      | _ => [providerDefaults.sub (.key "node_config"), v.under providerNodeConfigPath]) ++
    [v.under (nodeConfigPath name)]

/-- The layers with one for any `node_config` of the provider. -/
def allLayers (v : Plain) (name : Scalar) : List Plain :=
  headLayer (isHeadNodeType v name) ++
    [providerDefaults.sub (.key "node_config"), v.under providerNodeConfigPath,
      v.under (nodeConfigPath name)]

/-- The config with the layered `node_config` of each node type. -/
def withLayers (v : Plain) : Plain :=
  withNodeConfigs (fun n => (v (nodeTypePath n)).isSome) (fun n => View.layered (layers v n))
    (withParameters v)

/-- The config after the call. -/
def resolved (md5 : String → String) (v : Plain) : Plain := withSsh md5 (withLayers v)

/-- What keeps `_apply_config_defaults` from raising. -/
structure Acceptable (v : Plain) : Prop where
  parameters : KeysIn (acceptsKey · = true) (v.under parametersPath)
  nodeConfigs : ∀ name, KeysIn (acceptsKey · = true) (v.under (nodeConfigPath name))
  providerNodeConfig : v providerNodeConfigPath = none ∨ v providerNodeConfigPath = some (.dict ())
  auth : v authPath = none ∨ v authPath = some (.dict ())
  sshPrivateKey : v sshPrivateKeyPath ≠ none ∨ ∃ s, clusterName v = some s

variable {v : Plain} {name : Scalar} {q : List (Seg Scalar)}

/-! ### The `node_config` of a node type -/

/-- The layers come from three places. -/
theorem layers_congr {w : Plain} (hhead : isHeadNodeType w name = isHeadNodeType v name)
    (hprovider : w.under providerNodeConfigPath = v.under providerNodeConfigPath)
    (hown : w.under (nodeConfigPath name) = v.under (nodeConfigPath name)) :
    layers w name = layers v name := by
  have hroot : w providerNodeConfigPath = v providerNodeConfigPath := by
    simpa using congrFun hprovider []
  rw [layers, hhead, hroot, hprovider, hown, layers]

theorem withParameters_other (hq : ¬ parametersPath <+: q) : withParameters v q = v q := by
  rw [withParameters, View.setAt_of_outside hq]

theorem under_withParameters (hroot : v parametersPath = some (.dict ())) :
    (withParameters v).under providerNodeConfigPath =
      (providerDefaults.sub (.key "node_config")).merge (v.under providerNodeConfigPath) := by
  have hsub : (v.under parametersPath).sub (.key "node_config") =
      v.under providerNodeConfigPath := rfl
  have hgiven : v.under parametersPath [] = some (.dict ()) := hroot
  rw [← hsub, ← View.sub_merge_dict (show providerDefaults [] = some (.dict ()) from rfl) hgiven]
  funext q
  exact View.setAt_append v (providerDefaults.merge (v.under parametersPath)) parametersPath
    (.key "node_config" :: q)

theorem isHeadNodeType_withParameters (v : Plain) (name : Scalar) :
    isHeadNodeType (withParameters v) name = isHeadNodeType v name := by
  rw [isHeadNodeType, headNodeType, withParameters_other (by simp [parametersPath])]
  rfl

theorem under_nodeConfigPath_withParameters (v : Plain) (name : Scalar) :
    (withParameters v).under (nodeConfigPath name) = v.under (nodeConfigPath name) := by
  funext q
  exact withParameters_other (by simp [parametersPath, nodeConfigPath])

theorem sub_providerDefaults :
    providerDefaults.sub (.key "node_config") = (view moduleHeap (.ref 1)).erase := by
  have hchild : child moduleHeap PROVIDER_DEFAULTS (.key "node_config") = some (.ref 1) := rfl
  rw [providerDefaults, View.erase, View.map_sub, sub_view hchild]
  rfl

theorem sub_headDefaults :
    headDefaults.sub (.key "node_config") = (view moduleHeap (.ref 3)).erase := by
  have hchild : child moduleHeap HEAD_NODE_DEFAULTS (.key "node_config") = some (.ref 3) := rfl
  rw [headDefaults, View.erase, View.map_sub, sub_view hchild]
  rfl

/-- The two defaults have no key in common. -/
theorem defaults_apart (s : Seg Scalar) :
    (headDefaults.sub (.key "node_config")).sub s = View.nothing ∨
      (providerDefaults.sub (.key "node_config")).sub s = View.nothing := by
  rw [sub_headDefaults, sub_providerDefaults]
  by_cases hs : s = .key "subnet_tag"
  · left
    have hchild : child moduleHeap (.ref 3) s = none := by
      subst hs
      rfl
    rw [View.erase, View.map_sub, sub_view_none hchild]
    rfl
  · right
    have hchild : child moduleHeap (.ref 1) s = none := by
      cases s with
      | key k =>
          have hk : (k == .str "subnet_tag") = false := by simpa using hs
          simp [child, moduleHeap, Dict.get, List.lookup_cons, hk]
      | idx i => rfl
    rw [View.erase, View.map_sub, sub_view_none hchild]
    rfl

/-- What the start of a node type is merged with. -/
theorem start_merge {w : Plain} (hw : w [] = some (.dict ())) (head : Bool) :
    (startNodeConfig head).merge w =
      (View.layered (headLayer head)).merge w := by
  cases head with
  | true => simp [startNodeConfig, headLayer, View.layered, View.merge_nothing_left]
  | false =>
      have hempty : emptyDict.merge w = w :=
        View.merge_empty rfl (fun s => by funext p; rfl) hw
      simp [startNodeConfig, headLayer, View.layered, View.merge_nothing_left, hempty]

theorem provider_merge_root {w : Plain} (hw : w [] = none ∨ w [] = some (.dict ())) :
    (providerDefaults.sub (.key "node_config")).merge w [] = some (.dict ()) := by
  have hprovider : providerDefaults.sub (.key "node_config") [] = some (.dict ()) := rfl
  rcases hw with hw | hw
  · rw [View.merge_of_some_none (by rw [hprovider]; simp) hw, hprovider]
  · exact View.merge_nil_dict hprovider hw

/-- The defaults of the head node type under those of the provider and what is over these. -/
theorem start_merge_provider {w : Plain} (hw : w [] = none ∨ w [] = some (.dict ())) (head : Bool) :
    (startNodeConfig head).merge ((providerDefaults.sub (.key "node_config")).merge w) =
      ((View.layered (headLayer head)).merge
        (providerDefaults.sub (.key "node_config"))).merge w := by
  rw [start_merge (provider_merge_root hw)]
  cases head with
  | true =>
      simp only [headLayer, if_true, View.layered, List.foldl_cons, List.foldl_nil,
        View.merge_nothing_left]
      exact (View.merge_assoc rfl rfl (hw.imp_right fun hw => ⟨(), hw⟩) defaults_apart).symm
  | false => simp [headLayer, View.layered, View.merge_nothing_left]

/-- The loop gives a node type its layers. -/
theorem loopNodeConfig_withParameters (hroot : v parametersPath = some (.dict ()))
    (hown : v (nodeConfigPath name) = some (.dict ())) :
    loopNodeConfig (withParameters v) name = View.layered (layers v name) := by
  have hownRoot : v.under (nodeConfigPath name) [] = some (.dict ()) := by simpa using hown
  have hgiven : v.under providerNodeConfigPath [] = v providerNodeConfigPath := by simp
  have hlower : ∀ {w : Plain}, w [] = none ∨ w [] = some (.dict ()) →
      lowerNodeConfig (startNodeConfig (isHeadNodeType v name))
        ((providerDefaults.sub (.key "node_config")).merge w) =
      View.layered (headLayer (isHeadNodeType v name) ++
        [providerDefaults.sub (.key "node_config"), w]) := fun {w} hw => by
    rw [lowerNodeConfig_dict (provider_merge_root hw), start_merge_provider hw,
      ← View.layered_concat, ← View.layered_concat, List.append_assoc]
    rfl
  have hother : ∀ {x}, v providerNodeConfigPath = some x → (∀ r, x ≠ .dict r) →
      (providerDefaults.sub (.key "node_config")).merge (v.under providerNodeConfigPath) =
        v.under providerNodeConfigPath := fun hx hdict =>
    View.merge_of_kinds (x := .dict ()) rfl (hgiven.trans hx) (fun _ r _ => hdict r) (by simp)
  rw [loopNodeConfig, resolvedNodeConfig, isHeadNodeType_withParameters,
    under_withParameters hroot, under_nodeConfigPath_withParameters, layers, View.layered_concat]
  rcases hN : v providerNodeConfigPath with _ | a | _ | ⟨_, n⟩
  · rw [hlower (.inl (hgiven.trans hN))]
  · rw [hother hN (by simp), lowerNodeConfig, hgiven, hN, List.append_nil]
    exact start_merge hownRoot _
  · rw [hlower (.inr (hgiven.trans hN))]
  · rw [hother hN (by simp), lowerNodeConfig, hgiven, hN, List.append_nil]
    exact start_merge hownRoot _

theorem keysIn_providerDefaults {p : Scalar → Prop} (hp : p "subnet_tag") :
    KeysIn p (providerDefaults.sub (.key "node_config")) := by
  rw [sub_providerDefaults]
  have hkeys : KeysIn p (view moduleHeap (.ref 1)) :=
    keysIn_of_atoms rfl (by simp [Dict.values]) (by simp [Dict.keys, hp])
  exact hkeys.map _

theorem SourceKeys.mono {p p' : Scalar → Prop} (hv : SourceKeys p v) (hp : ∀ k, p k → p' k) :
    SourceKeys p' v :=
  ⟨fun q k hne => hp k (hv.parameters q k hne),
    fun name q k hne => hp k (hv.nodeConfigs name q k hne)⟩

theorem Acceptable.accepts (hv : Acceptable v) : SourceKeys (acceptsKey · = true) v :=
  ⟨hv.parameters, hv.nodeConfigs⟩

/-! ### The whole call -/

theorem withLayers_other (hq : ¬ parametersPath <+: q)
    (hname : ∀ name, ¬ nodeConfigPath name <+: q) :
    withLayers v q = v q := by
  rw [withLayers, withNodeConfigs_other fun name _ => hname name, withParameters_other hq]

theorem withNodeConfigs_congr {p p' : Scalar → Bool} {f f' : Scalar → Plain}
    (hp : ∀ n, p n = p' n) (hf : ∀ n, p n = true → f n = f' n) :
    withNodeConfigs p f v = withNodeConfigs p' f' v := by
  obtain rfl : p = p' := funext hp
  funext q
  by_cases hq : ∃ n, p n = true ∧ nodeConfigPath n <+: q
  · obtain ⟨n, hn, q, rfl⟩ := hq
    rw [withNodeConfigs_self hn, withNodeConfigs_self hn, hf n hn]
  · have hout := fun n (hn : p n = true) hpre => hq ⟨n, hn, hpre⟩
    rw [withNodeConfigs_other hout, withNodeConfigs_other hout]

variable {h h₁ h₂ : Heap} {c r parameters : Nat} {done : Scalar → Bool} {reads : Scalar → Prop}

theorem erase_dict {w : Value} (hq : view h w q = some (.dict r)) :
    (view h w).erase q = some (.dict ()) := by
  simp [View.erase, hq, Node.map]

/-- A node type of an unaliased config gets its layers. -/
theorem Unaliased.loopNodeConfig (hu : Unaliased h c)
    (hname : view h (.ref c) (nodeTypePath name) ≠ none) :
    loopNodeConfig (withParameters (view h (.ref c)).erase) name =
      View.layered (layers (view h (.ref c)).erase name) := by
  obtain ⟨pm, hpm⟩ := hu.parameters
  obtain ⟨-, own, hown⟩ := hu.nodeType name hname
  exact loopNodeConfig_withParameters (erase_dict hpm) (erase_dict hown)

/-- The keys that the loop finds are those of the config and of the defaults. -/
theorem ParametersMerged.mergeKeys (hp : ParametersMerged h c h₁ parameters)
    (hu : CallReady reads h c) {p : Scalar → Prop}
    (hkeys : SourceKeys p (view h (.ref c)).erase) (hdefault : p "subnet_tag") (name : Scalar) :
    MergeKeys p h₁ c name := by
  obtain ⟨pm, hpm⟩ := hu.parameters
  have hsame : ((view h₁ (.ref c)).under providerNodeConfigPath).erase =
      (withParameters (view h (.ref c)).erase).under providerNodeConfigPath := by
    rw [← hp.value]
    rfl
  have hown : (view h₁ (.ref c)).under (nodeConfigPath name) =
      (view h (.ref c)).under (nodeConfigPath name) := by
    funext q
    exact hp.view_other (by simp [parametersPath, nodeConfigPath])
  constructor
  · refine KeysIn.of_map (f := fun _ => ()) ?_
    rw [← View.erase, hsame, under_withParameters (erase_dict hpm)]
    exact (keysIn_providerDefaults hdefault).merge (hkeys.parameters.sub (.key "node_config"))
  · rw [hown]
    exact KeysIn.of_map (hkeys.nodeConfigs name)

/-- An acceptable config is so in the merges of each node type. -/
theorem ParametersMerged.mergeAccepts (hp : ParametersMerged h c h₁ parameters)
    (hu : CallReady reads h c) (hv : Acceptable (view h (.ref c)).erase) (name : Scalar) :
    MergeAccepts h₁ c name := by
  refine ⟨dict_of_erased ?_, hp.mergeKeys hu hv.accepts rfl name⟩
  have hroot : (view h (.ref c)).erase.under providerNodeConfigPath [] =
      (view h (.ref c)).erase providerNodeConfigPath := by simp
  exact (hp.providerNodeConfig hu).trans (provider_merge_root (hroot ▸ hv.providerNodeConfig))

/-- The config when all node types have been resolved. -/
theorem LoopInv.configReady (hi : LoopInv h₁ c done h₂) (hu : CallReady reads h c)
    (hp : ParametersMerged h c h₁ parameters)
    (hdone : ∀ n, done n = (view h (.ref c) (nodeTypePath n)).isSome) :
    ConfigReady h₂ c [[], parametersPath] (withLayers (view h (.ref c)).erase) := by
  have hl := hp.loopReady hu
  obtain ⟨f, hf, hcontent⟩ := hi.resolved
  refine ⟨hi.valid, hl.live.mono hi.grows, hi.defaults hl, fun r hr => ?_, ?_, fun q hq => ?_⟩
  · obtain ⟨q, hq⟩ := hr
    rw [hf] at hq
    rcases ident_withNodeConfigs hq with ⟨n, q', hn, -, hin⟩ | hold
    · rcases (hcontent n hn).2 r ⟨q', hin⟩ with hge | hown
      · exact hl.defaults.length_le.trans hge
      · exact hl.fresh r hown.of_under
    · exact hl.fresh r ⟨q, hold⟩
  · rw [hf, View.erase, map_withNodeConfigs, withLayers, ← hp.value]
    refine withNodeConfigs_congr (fun n => ?_) fun n hn => ?_
    · rw [hdone]
      simp [View.erase]
    · refine (hcontent n hn).1.trans ?_
      rw [hp.value]
      refine hu.loopNodeConfig fun hnone => ?_
      rw [hdone, hnone] at hn
      cases hn
  · simp only [List.mem_cons, List.not_mem_nil, or_false] at hq
    rcases hq with rfl | rfl
    · exact hi.owned hl hl.config (by simp [nodeConfigPath])
    · exact hi.owned hl ⟨parameters, hp.parameters_at hu⟩ (by simp [nodeConfigPath, parametersPath])

variable {merge : Heap → Value → Value → Option Heap} {md5 : String → String} {Q : Prop} {n : Nat}

/-- The loop is over the node types of the config, if it has any. -/
theorem LoopReady.resolveAll (hmerge : DeepMerges reads (acceptsKey · = true) merge)
    (hl : LoopReady h c) (hn : h[n]? = some (.dict {}))
    (hreads : ∀ name, MergeKeys reads h c name) (hkeys : Q → ∀ name, MergeAccepts h c name) :
    ∃ nodeTypes names, getDefault h (.ref c) "available_node_types" (.ref n) = some nodeTypes ∧
      keys h nodeTypes = some names ∧
      Ends Q (resolveNodeTypes merge (.ref c) nodeTypes names.length h names) fun h' =>
        ∃ done : Scalar → Bool, LoopInv h c done h' ∧
          ∀ name, done name = (view h (.ref c) (nodeTypePath name)).isSome := by
  obtain ⟨d, hd⟩ := hl.config.root
  have hget := getDefault_dict hd (.str "available_node_types") (.ref n)
  have hpath : find h (.ref c) [.key "available_node_types"] = d.get "available_node_types" :=
    (find_key (p := []) rfl).trans (getItem_dict hd _)
  have hbelow : ∀ name, find h (.ref c) (nodeTypePath name) =
      (d.get "available_node_types").bind fun x => find h x [.key name] := fun name => by
    rw [← hpath]
    exact find_append h (.ref c) [.key "available_node_types"] [.key name]
  rcases hx : d.get "available_node_types" with _ | x
  · refine ⟨.ref n, [], by rw [hget, hx]; rfl, by simp [keys, dictOf, hn, Dict.keys], ?_⟩
    refine ⟨fun _ => false, hl.loopInv, fun name => ?_⟩
    simp [view, hbelow name, hx]
  · obtain ⟨t, ht⟩ := hl.nodeTypes (node h x) (by simp [view, hpath, hx])
    obtain ⟨rfl, e, he⟩ := node_eq_dict_iff.mp ht
    have hnodup : e.keys.Nodup := (hl.valid _ (List.mem_of_getElem? he)).2
    have hends := resolveNodeTypes_ends hmerge hl hl.loopInv (hpath.trans hx) he
      (fun _ hmem => hmem) (fun _ _ => rfl) hnodup hreads hkeys
    refine ⟨.ref t, e.keys, by rw [hget, hx]; rfl, by simp [keys, dictOf, he], ?_⟩
    refine hends.mono fun h' hi => ⟨_, hi, fun name => ?_⟩
    have hstep : find h (.ref c) (nodeTypePath name) = e.get name := by
      rw [hbelow, hx]
      exact (find_key (p := []) rfl).trans (getItem_dict he name)
    have hmem : decide (name ∈ e.keys) = (e.get name).isSome := by
      rw [Bool.eq_iff_iff, decide_eq_true_iff, Dict.mem_keys_iff, Option.isSome_iff_ne_none]
    simp [view, hstep, hmem]

/-- **The whole call** gives the resolved config, and leaves the defaults of the module as they
are. -/
theorem applyConfigDefaults_ends (hmerge : DeepMerges reads (acceptsKey · = true) merge)
    (hu : CallReady reads h c) :
    Ends (Acceptable (view h (.ref c)).erase) (applyConfigDefaults merge md5 h (.ref c)) fun h' =>
      ConfigReady h' c [[], parametersPath, authPath] (resolved md5 (view h (.ref c)).erase) := by
  rw [applyConfigDefaults]
  refine Ends.bind (mergeParameters_ends hmerge hu fun hq => hq.parameters.of_map) fun x hx => ?_
  obtain ⟨h₁, w⟩ := x
  obtain ⟨parameters, rfl, hp⟩ := hx
  have hvalid : Valid (h₁ ++ [.dict {}] : Heap) := hp.valid.append (by simpa using wf_empty)
  replace hp := hp.append hu hvalid
  have hnew : (h₁ ++ [.dict {}] : Heap)[h₁.length]? = some (.dict {}) := by simp
  have hl := hp.loopReady hu
  obtain ⟨nodeTypes, names, hget, hnames, hloop⟩ := hl.resolveAll
    (Q := Acceptable (view h (.ref c)).erase) hmerge hnew
    (hp.mergeKeys hu hu.read (hmerge.accepted _ rfl)) (hp.mergeAccepts hu)
  simp only [alloc, hget, hnames, Option.bind_eq_bind, Option.bind_some]
  refine Ends.bind hloop fun h₂ hi => ?_
  obtain ⟨done, hi, hdone⟩ := hi
  have hother : ∀ q, ¬ parametersPath <+: q → (∀ name, ¬ nodeConfigPath name <+: q) →
      view h₂ (.ref c) q = view h (.ref c) q := fun q hq hname =>
    (hi.view_other fun name _ => hname name).trans (hp.view_other hq)
  have hready := hi.configReady hu hp fun n => by
    rw [hdone, hp.view_other (by simp [parametersPath, nodeTypePath])]
  have hauth := hother [.key "auth"] (by simp [parametersPath]) (by simp [nodeConfigPath])
  have hparameters := (hi.view_other fun name _ => by
    simp [nodeConfigPath, parametersPath]).trans (hp.parameters_at hu).1
  refine applySshDefaults_ends hready (view_eq_dict_iff.mp hparameters).1 (fun r hr => ?_)
    fun hq => ?_
  · replace hr := hauth.symm.trans hr
    have hlt : r < h.length := hu.valid.has_lt hu.config.live (has_of_dict hr)
    exact hi.sole (Nat.lt_of_lt_of_le hlt hp.grows)
      (hp.sole hlt (hu.auth r hr) (by simp [parametersPath, authPath]))
      (by simp [nodeConfigPath, authPath])
  · rw [withLayers_other (q := authPath) (by simp [parametersPath, authPath])
      (by simp [nodeConfigPath, authPath]), withLayers_other (q := sshPrivateKeyPath)
      (by simp [parametersPath, sshPrivateKeyPath]) (by simp [nodeConfigPath, sshPrivateKeyPath]),
      clusterName, withLayers_other (by simp [parametersPath]) (by simp [nodeConfigPath])]
    exact ⟨hq.auth, hq.sshPrivateKey⟩

/-! ### Precedence -/

/-- A config path by path. -/
abbrev plain (h : Heap) (c : Nat) : Plain := (view h (.ref c)).erase

/-- A process after the module has been loaded: it calls `_apply_config_defaults` on configs
that are not aliased and whose keys `dpath` reads, and what it does otherwise does not change
the defaults. -/
inductive Process (reads : Scalar → Prop) (merge : Heap → Value → Value → Option Heap)
    (md5 : String → String) : Heap → Prop
  | loaded : Process reads merge md5 moduleHeap
  | other {h h' : Heap} (hp : Process reads merge md5 h)
      (hsame : ∀ r < moduleHeap.length, h'[r]? = h[r]?) : Process reads merge md5 h'
  | call {h h' : Heap} {c : Nat} (hp : Process reads merge md5 h) (hu : Unaliased h c)
      (hreads : SourceKeys reads (plain h c))
      (hcall : applyConfigDefaults merge md5 h (.ref c) = some h') : Process reads merge md5 h'

/-- The defaults are the same in each state of a process. -/
theorem Process.defaults (hmerge : DeepMerges reads (acceptsKey · = true) merge)
    (hp : Process reads merge md5 h) : moduleHeap <+: h := by
  induction hp with
  | loaded => exact List.prefix_rfl
  | other _ hsame ih =>
      refine List.prefix_iff_getElem?.mpr fun r hr => ?_
      rw [hsame r hr, List.prefix_iff_getElem?.mp ih r hr]
  | call _ hu hreads hcall ih =>
      have hready : CallReady reads _ _ := { hu with defaults := ih, read := hreads }
      exact ((applyConfigDefaults_ends hmerge hready).of_some hcall).defaults

theorem withSsh_other (hauth : ¬ authPath <+: q)
    (hparameters : ∀ k ∈ [Scalar.str "ssh_private_key", .str "ssh_user"],
      ¬ parametersPath ++ [.key k] <+: q) :
    withSsh md5 v q = v q := by
  have hbelow : ∀ k, ¬ authPath ++ [.key k] <+: q := fun k hpre =>
    hauth ((List.prefix_append _ _).trans hpre)
  rw [withSsh, View.setAt_of_outside (hparameters _ (by simp)),
    View.setAt_of_outside (hparameters _ (by simp)), withSshDefaults,
    orElse_outside (p := sshPrivateKeyPath) (hbelow (.str "ssh_private_key")),
    orElse_outside (p := sshUserPath) (hbelow (.str "ssh_user")), orElse_outside hauth]

theorem under_resolved_nodeConfig (hname : v (nodeTypePath name) ≠ none) :
    (resolved md5 v).under (nodeConfigPath name) = View.layered (layers v name) := by
  funext q
  rw [View.under_apply, resolved, withSsh_other (by simp [authPath, nodeConfigPath])
    (by simp [parametersPath, nodeConfigPath]), withLayers,
    withNodeConfigs_self (Option.isSome_iff_ne_none.mpr hname)]

theorem resolved_nodeType (hq : ¬ nodeConfigPath name <+: nodeTypePath name ++ q) :
    resolved md5 v (nodeTypePath name ++ q) = v (nodeTypePath name ++ q) := by
  rw [resolved, withSsh_other (by simp [authPath, nodeTypePath])
    (by simp [parametersPath, nodeTypePath]), withLayers_other
    (by simp [parametersPath, nodeTypePath]) fun n hpre => hq ?_]
  obtain rfl : n = name := by simpa [nodeConfigPath, nodeTypePath] using (List.prefix_append
    (nodeTypePath n) [.key "node_config"]).trans hpre
  exact hpre

theorem under_resolved_parameters {k : Scalar} (hkey : k ≠ "ssh_private_key")
    (huser : k ≠ "ssh_user") :
    (resolved md5 v).under (parametersPath ++ [.key k]) =
      (providerDefaults.merge (v.under parametersPath)).sub (.key k) := by
  funext q
  rw [View.under_apply, resolved, withSsh_other (by simp [authPath, parametersPath]) ?_,
    withLayers, withNodeConfigs_other (by simp [parametersPath, nodeConfigPath]), withParameters,
    List.append_assoc, View.setAt_append]
  · rfl
  · simp [parametersPath, hkey.symm, huser.symm]

/-- **Config defaults resolve by precedence.**  In any state of a process, a call on an unaliased
config, where `dpath` reads the keys of what is merged, has a result when it accepts these keys
and the ssh details can be completed.
Each node type then has its layers as its `node_config` and is otherwise as it was, the provider
parameters are the given ones over their defaults, and the defaults of the module are as
before.  Another call, in any state of a process, gives a node type with the same layers the same
`node_config`, and an equal config the same result. -/
theorem node_config_layered (md5 : String → String)
    (hmerge : DeepMerges reads (acceptsKey · = true) merge) (hproc : Process reads merge md5 h)
    (hu : Unaliased h c) (hreads : SourceKeys reads (plain h c)) :
    (Acceptable (plain h c) → ∃ h', applyConfigDefaults merge md5 h (.ref c) = some h') ∧
    ∀ h', applyConfigDefaults merge md5 h (.ref c) = some h' →
      (∀ name, plain h c (nodeTypePath name) ≠ none →
        (plain h' c).under (nodeConfigPath name) = View.layered (layers (plain h c) name)) ∧
      (∀ name q, ¬ nodeConfigPath name <+: nodeTypePath name ++ q →
        plain h' c (nodeTypePath name ++ q) = plain h c (nodeTypePath name ++ q)) ∧
      (∀ k, k ≠ .str "ssh_private_key" → k ≠ .str "ssh_user" →
        (plain h' c).under (parametersPath ++ [.key k]) =
          (providerDefaults.merge ((plain h c).under parametersPath)).sub (.key k)) ∧
      moduleHeap <+: h' ∧
      ∀ h₂ c₂ h₂', Process reads merge md5 h₂ → Unaliased h₂ c₂ → SourceKeys reads (plain h₂ c₂) →
        applyConfigDefaults merge md5 h₂ (.ref c₂) = some h₂' →
        (∀ name, plain h c (nodeTypePath name) ≠ none → plain h₂ c₂ (nodeTypePath name) ≠ none →
          isHeadNodeType (plain h₂ c₂) name = isHeadNodeType (plain h c) name →
          (plain h₂ c₂).under providerNodeConfigPath = (plain h c).under providerNodeConfigPath →
          (plain h₂ c₂).under (nodeConfigPath name) = (plain h c).under (nodeConfigPath name) →
          (plain h₂' c₂).under (nodeConfigPath name) =
            (plain h' c).under (nodeConfigPath name)) ∧
        (plain h₂ c₂ = plain h c → plain h₂' c₂ = plain h' c) := by
  have hcalls : ∀ {h c}, Process reads merge md5 h → Unaliased h c →
      SourceKeys reads (plain h c) →
      Ends (Acceptable (plain h c)) (applyConfigDefaults merge md5 h (.ref c)) fun h' =>
        ConfigReady h' c [[], parametersPath, authPath] (resolved md5 (plain h c)) :=
    fun hproc hu hreads => applyConfigDefaults_ends hmerge
      { hu with defaults := hproc.defaults hmerge, read := hreads }
  refine ⟨fun hacceptable => ?_, fun h' hcall => ?_⟩
  · obtain ⟨h', hcall, -⟩ := (hcalls hproc hu hreads).some_of hacceptable
    exact ⟨h', hcall⟩
  have hready := (hcalls hproc hu hreads).of_some hcall
  have hvalue : plain h' c = resolved md5 (plain h c) := hready.value
  rw [hvalue]
  refine ⟨fun name hname => under_resolved_nodeConfig hname, fun name q hq => resolved_nodeType hq,
    fun k hkey huser => under_resolved_parameters hkey huser, hready.defaults, ?_⟩
  intro h₂ c₂ h₂' hproc₂ hu₂ hreads₂ hcall₂
  have hvalue₂ : plain h₂' c₂ = resolved md5 (plain h₂ c₂) :=
    ((hcalls hproc₂ hu₂ hreads₂).of_some hcall₂).value
  rw [hvalue₂]
  refine ⟨fun name hname hname₂ hhead hprovider hown => ?_, fun heq => by rw [heq]⟩
  rw [under_resolved_nodeConfig hname, under_resolved_nodeConfig hname₂,
    layers_congr hhead hprovider hown]

/-- A config with two node types; `worker` is an object of its own or that of `head`. -/
def twoNodeTypes (providerNodeConfig : Value) (worker : Nat) : Heap :=
  moduleHeap ++ [
    .dict ⟨[
      ("cluster_name", text "golem-cluster"),
      ("provider", .ref 5),
      ("head_node_type", text "head"),
      ("available_node_types", .ref 8),
      ("auth", .ref 13)]⟩,
    .dict ⟨[("parameters", .ref 6)]⟩,
    .dict ⟨[("total_budget", .atom (.int 10)), ("node_config", providerNodeConfig)]⟩,
    .dict ⟨[("subnet_tag", text "mine")]⟩,
    .dict ⟨[("head", .ref 9), ("worker", .ref worker)]⟩,
    .dict ⟨[("node_config", .ref 10)]⟩,
    .dict ⟨[("image_tag", text "head")]⟩,
    .dict ⟨[("min_workers", .atom (.int 2)), ("node_config", .ref 12)]⟩,
    .dict ⟨[("image_tag", text "worker")]⟩,
    .dict ⟨[("ssh_private_key", text "/root/.ssh/id_rsa")]⟩]

theorem shaped_twoNodeTypes : Shaped (twoNodeTypes (.ref 7) 11) 4 := by
  refine ⟨⟨4, by decide⟩, ⟨5, by decide⟩, ⟨6, by decide⟩, fun x hx => ⟨8, ?_⟩,
    fun name hname => ?_⟩
  · have hdict : view (twoNodeTypes (.ref 7) 11) (.ref 4) [.key "available_node_types"] =
        some (.dict 8) := by decide
    exact Option.some.inj (hx.symm.trans hdict)
  · by_cases hhead : name = "head"
    · subst hhead
      exact ⟨⟨9, by decide⟩, 10, by decide⟩
    by_cases hworker : name = "worker"
    · subst hworker
      exact ⟨⟨11, by decide⟩, 12, by decide⟩
    · have hitem : getItem (twoNodeTypes (.ref 7) 11) (.ref 8) name = none := by
        have hh : (name == .str "head") = false := by simpa using hhead
        have hw : (name == .str "worker") = false := by simpa using hworker
        have hobj : (twoNodeTypes (.ref 7) 11)[8]? =
            some (.dict ⟨[(.str "head", .ref 9), (.str "worker", .ref 11)]⟩) := rfl
        rw [getItem_dict hobj]
        simp [Dict.get, List.lookup_cons, hh, hw]
      have hnodeTypes : find (twoNodeTypes (.ref 7) 11) (.ref 4) [.key "available_node_types"] =
          some (.ref 8) := by decide
      have hpath : find (twoNodeTypes (.ref 7) 11) (.ref 4) (nodeTypePath name) = none :=
        (find_key hnodeTypes).trans hitem
      exact absurd (by rw [view, hpath]; rfl) hname

theorem node_config_layered_twoNodeTypes :
    ∃ h', applyConfigDefaults (deepMerge acceptsKey) id (twoNodeTypes (.ref 7) 11) (.ref 4) =
        some h' ∧
      (plain h' 4).under (nodeConfigPath "worker") =
        View.layered (layers (plain (twoNodeTypes (.ref 7) 11) 4) "worker") := by
  have hproc : Process (readsKey · = true) (deepMerge acceptsKey) id (twoNodeTypes (.ref 7) 11) :=
    .other .loaded (by decide)
  have hu : Unaliased (twoNodeTypes (.ref 7) 11) 4 :=
    shaped_twoNodeTypes.unaliased (by decide) (by decide) (by decide)
  have hkeys : KeysIn (acceptsKey · = true) (plain (twoNodeTypes (.ref 7) 11) 4) :=
    (keysIn_of_objects (by decide) _).map _
  have hacceptable : Acceptable (plain (twoNodeTypes (.ref 7) 11) 4) :=
    ⟨hkeys.under _, fun _ => hkeys.under _, .inr (by decide), .inr (by decide), .inl (by decide)⟩
  obtain ⟨hreturns, hlayered⟩ :=
    node_config_layered id (deepMerge_deepMerges readsKey_of_acceptsKey) hproc hu
      (hacceptable.accepts.mono readsKey_of_acceptsKey)
  obtain ⟨h', hcall⟩ := hreturns hacceptable
  exact ⟨h', hcall, (hlayered h' hcall).1 "worker" (by decide)⟩

/-- A worker that is the same object as the head node type gets the defaults of the head, and a
provider's `node_config` that is null leaves these to the head node type. -/
theorem node_config_not_layered :
    ((applyConfigDefaults (deepMerge acceptsKey) id (twoNodeTypes (.ref 7) 9) (.ref 4)).map
        fun h => plain h 4 (nodeConfigPath "worker" ++ [.key "priority_subnet_tag"])) =
      some (some (.atom "ray-on-golem-heads")) ∧
    View.layered (allLayers (plain (twoNodeTypes (.ref 7) 9) 4) "worker")
      [.key "priority_subnet_tag"] = none ∧
    ((applyConfigDefaults (deepMerge acceptsKey) id (twoNodeTypes (.atom .none) 11) (.ref 4)).map
        fun h => plain h 4 (nodeConfigPath "head" ++ [.key "priority_subnet_tag"])) =
      some (some (.atom "ray-on-golem-heads")) ∧
    View.layered (allLayers (plain (twoNodeTypes (.atom .none) 11) 4) "head")
      [.key "priority_subnet_tag"] = none := by
  refine ⟨?_, ?_, ?_, ?_⟩ <;> decide +kernel

end ConfigDefaults
