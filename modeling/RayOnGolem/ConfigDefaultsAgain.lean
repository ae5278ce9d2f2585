import RayOnGolem.ConfigDefaultsLayers

/-!
# Config defaults: a resolved config

The config that `bootstrap_config` makes is saved and read again: by `ray` on the head node, and
by whoever gives it to another command that calls `_apply_config_defaults`.  A second call
accepts what the first one made and leaves it as it is (`defaults_again`).

This needs that the provider's `node_config` has no lists: `dpath` appends lists, so that a list
of the provider is put in front of that of a node type with every call (`list_grows`).
-/

namespace ConfigDefaults

open PyHeap PathView

variable {v w : Plain} {name : Scalar} {q : List (Seg Scalar)} {md5 : String → String}

/-! ### The defaults have no lists -/

/-- A heap of dictionaries. -/
theorem noLists_of_objects {h : Heap} {x : Value} (hh : Valid h) (hx : x.Live h.length)
    (hobjects : ∀ o ∈ h, ∀ l, o ≠ .list l) : (view h x).erase.NoLists := by
  intro p r n hp
  obtain ⟨y, hy, hlist⟩ := Option.map_eq_some_iff.mp hp
  obtain ⟨z, hz, rfl⟩ := Option.map_eq_some_iff.mp hy
  cases z with
  | atom a => cases hlist
  | ref i =>
      have hlive : i < h.length := hh.find hx hz
      cases hobj : h[i] with
      | dict d =>
          rw [node, List.getElem?_eq_getElem hlive, hobj] at hlist
          cases hlist
      | list l => exact hobjects _ (List.getElem_mem hlive) l hobj

theorem noLists_module (i : Nat) (hi : i < moduleHeap.length) :
    (view moduleHeap (.ref i)).erase.NoLists := by
  apply noLists_of_objects valid_moduleHeap (x := .ref i) hi
  intro o ho l hl
  subst hl
  simp [moduleHeap] at ho

theorem noLists_providerDefaults : providerDefaults.NoLists := noLists_module 0 (by decide)

theorem noLists_headLayer (head : Bool) : ∀ u ∈ headLayer head, u.NoLists := by
  intro u hu
  cases head with
  | false => cases hu
  | true =>
      obtain rfl := List.mem_singleton.mp hu
      rw [sub_headDefaults]
      exact noLists_module 3 (by decide)

/-! ### The ssh details -/

section Ssh

variable (md5 : String → String) (v : Plain)

theorem withSsh_auth (hq : authPath <+: q) : withSsh md5 v q = withSshDefaults md5 v q := by
  obtain ⟨q, rfl⟩ := hq
  rw [withSsh, View.setAt_of_outside (by simp [authPath, parametersPath]),
    View.setAt_of_outside (by simp [authPath, parametersPath])]

/-- The ssh details are there. -/
theorem withSshDefaults_ne_none :
    withSshDefaults md5 v authPath ≠ none ∧ withSshDefaults md5 v sshUserPath ≠ none ∧
      withSshDefaults md5 v sshPrivateKeyPath ≠ none := by
  have hauth : orElse v authPath emptyDict authPath ≠ none := orElse_ne_none (by simp [emptyDict])
  have huser : orElse (orElse v authPath emptyDict) sshUserPath (scalar "root") sshUserPath ≠
      none := orElse_ne_none (by simp [scalar])
  refine ⟨?_, ?_, orElse_ne_none (by simp [scalar])⟩
  · rw [withSshDefaults, orElse_outside (by simp [authPath, sshPrivateKeyPath]),
      orElse_outside (by simp [authPath, sshUserPath])]
    exact hauth
  · rw [withSshDefaults, orElse_outside (by simp [sshUserPath, sshPrivateKeyPath])]
    exact huser

/-- Complete ssh details stay as they are. -/
theorem withSshDefaults_of_ne_none (hauth : v authPath ≠ none) (huser : v sshUserPath ≠ none)
    (hkey : v sshPrivateKeyPath ≠ none) : withSshDefaults md5 v = v := by
  have h₁ : orElse v authPath emptyDict = v := if_neg hauth
  have h₂ : orElse v sshUserPath (scalar "root") = v := if_neg huser
  simp only [withSshDefaults, h₁, h₂]
  exact if_neg hkey

/-- The provider has the private key of the config. -/
theorem under_withSsh_key :
    (withSsh md5 v).under (parametersPath ++ [.key "ssh_private_key"]) =
      (withSsh md5 v).under sshPrivateKeyPath := by
  funext q
  have hauth := withSsh_auth md5 v (q := sshPrivateKeyPath ++ q)
    (by simp [authPath, sshPrivateKeyPath])
  rw [View.under_apply, View.under_apply, hauth, withSsh,
    View.setAt_of_outside (by simp [parametersPath]), View.setAt_append]
  rfl

/-- The provider has the user of the config. -/
theorem under_withSsh_user :
    (withSsh md5 v).under (parametersPath ++ [.key "ssh_user"]) =
      (withSsh md5 v).under sshUserPath := by
  funext q
  have hauth := withSsh_auth md5 v (q := sshUserPath ++ q) (by simp [authPath, sshUserPath])
  rw [View.under_apply, View.under_apply, hauth, withSsh, View.setAt_append, View.under_apply,
    View.setAt_of_outside (by simp [parametersPath, sshUserPath])]

/-- **The ssh details** are completed once. -/
theorem withSsh_withSsh : withSsh md5 (withSsh md5 v) = withSsh md5 v := by
  obtain ⟨hauth, huser, hkey⟩ := withSshDefaults_ne_none md5 v
  have hsame : withSshDefaults md5 (withSsh md5 v) = withSsh md5 v := by
    apply withSshDefaults_of_ne_none
    · rwa [withSsh_auth md5 v (List.prefix_refl _)]
    · rwa [withSsh_auth md5 v (by simp [authPath, sshUserPath])]
    · rwa [withSsh_auth md5 v (by simp [authPath, sshPrivateKeyPath])]
  rw [withSsh, hsame, View.setAt_self (under_withSsh_key md5 v),
    View.setAt_self (under_withSsh_user md5 v)]

end Ssh

/-! ### The layers -/

theorem resolved_parametersPath (md5 : String → String)
    (hroot : v parametersPath = some (.dict ())) :
    resolved md5 v parametersPath = some (.dict ()) := by
  have hmerged : withParameters v (parametersPath ++ []) = some (.dict ()) := by
    rw [withParameters, View.setAt_append]
    exact View.merge_nil_dict rfl hroot
  rw [List.append_nil] at hmerged
  rw [resolved, withSsh, View.setAt_of_outside (by simp [parametersPath]),
    View.setAt_of_outside (by simp [parametersPath]),
    withSshDefaults, orElse_outside (by simp [sshPrivateKeyPath, parametersPath]),
    orElse_outside (by simp [sshUserPath, parametersPath]),
    orElse_outside (by simp [authPath, parametersPath]), withLayers,
    withNodeConfigs_other (by simp [nodeConfigPath, parametersPath])]
  exact hmerged

/-- `PROVIDER_DEFAULTS` has no ssh details and is no list. -/
theorem sub_providerDefaults_nothing {s : Seg Scalar}
    (hs : s = .key "ssh_private_key" ∨ s = .key "ssh_user" ∨ ∃ i, s = .idx i) :
    providerDefaults.sub s = View.nothing := by
  have hchild : child moduleHeap PROVIDER_DEFAULTS s = none := by
    rcases hs with rfl | rfl | ⟨i, rfl⟩
    · rfl
    · rfl
    · rfl
  rw [providerDefaults, View.erase, View.map_sub, sub_view_none hchild]
  rfl

/-- The provider parameters are over the defaults already. -/
theorem merge_parameters (md5 : String → String) (hroot : v parametersPath = some (.dict ())) :
    providerDefaults.merge ((resolved md5 v).under parametersPath) =
      (resolved md5 v).under parametersPath := by
  have hdefaults : providerDefaults [] = some (.dict ()) := rfl
  have hresolved : (resolved md5 v).under parametersPath [] = some (.dict ()) :=
    resolved_parametersPath md5 hroot
  refine View.ext_sub ?_ fun s => ?_
  · rw [View.merge_nil_dict hdefaults hresolved, hresolved]
  rw [View.sub_merge_dict hdefaults hresolved]
  by_cases hs : s = .key "ssh_private_key" ∨ s = .key "ssh_user" ∨ ∃ i, s = .idx i
  · rw [sub_providerDefaults_nothing hs, View.merge_nothing_left]
  cases s with
  | idx i => exact absurd (.inr (.inr ⟨i, rfl⟩)) hs
  | key k =>
      have hgiven : v.under parametersPath [] = some (.dict ()) := hroot
      have hk : ((resolved md5 v).under parametersPath).sub (.key k) =
          (providerDefaults.sub (.key k)).merge ((v.under parametersPath).sub (.key k)) := by
        rw [← View.sub_merge_dict hdefaults hgiven]
        exact under_resolved_parameters (fun heq => hs (.inl (congrArg Seg.key heq)))
          (fun heq => hs (.inr (.inl (congrArg Seg.key heq))))
      rw [hk, View.merge_absorb (noLists_providerDefaults.sub _)]

theorem isHeadNodeType_resolved (md5 : String → String) (v : Plain) (name : Scalar) :
    isHeadNodeType (resolved md5 v) name = isHeadNodeType v name := by
  have hsame : resolved md5 v [.key "head_node_type"] = v [.key "head_node_type"] := by
    rw [resolved, withSsh_other (by simp [authPath]) (by simp [parametersPath]),
      withLayers_other (by simp [parametersPath]) (by simp [nodeConfigPath])]
  rw [isHeadNodeType, headNodeType, hsame]
  rfl

/-- The provider's `node_config` of a resolved config. -/
theorem under_resolved_provider (md5 : String → String)
    (hroot : v parametersPath = some (.dict ())) :
    (resolved md5 v).under providerNodeConfigPath =
      (providerDefaults.sub (.key "node_config")).merge (v.under providerNodeConfigPath) := by
  have hgiven : v.under parametersPath [] = some (.dict ()) := hroot
  have hdefaults : providerDefaults [] = some (.dict ()) := rfl
  rw [show v.under providerNodeConfigPath = (v.under parametersPath).sub (.key "node_config")
    from rfl, ← View.sub_merge_dict hdefaults hgiven]
  exact under_resolved_parameters (by simp) (by simp)

/-- The layers below that of the node type. -/
def lowerLayers (v : Plain) (head : Bool) : Plain :=
  ((View.layered (headLayer head)).merge (providerDefaults.sub (.key "node_config"))).merge
    (v.under providerNodeConfigPath)

theorem layered_layers
    (hprovider : v providerNodeConfigPath = none ∨ v providerNodeConfigPath = some (.dict ())) :
    View.layered (layers v name) =
      (lowerLayers v (isHeadNodeType v name)).merge (v.under (nodeConfigPath name)) := by
  have hlayers : layers v name = headLayer (isHeadNodeType v name) ++
      [providerDefaults.sub (.key "node_config")] ++ [v.under providerNodeConfigPath] ++
        [v.under (nodeConfigPath name)] := by
    rcases hprovider with hprovider | hprovider
    · simp [layers, hprovider]
    · simp [layers, hprovider]
  rw [hlayers, View.layered_concat, View.layered_concat, View.layered_concat, lowerLayers]

theorem noLists_lowerLayers (hlists : (v.under providerNodeConfigPath).NoLists) (head : Bool) :
    (lowerLayers v head).NoLists := by
  have hhead : (View.layered (headLayer head)).NoLists := by
    cases head with
    | false => exact fun p r n => nofun
    | true =>
        have hlayered : View.layered (headLayer true) = headDefaults.sub (.key "node_config") :=
          View.merge_nothing_left
        rw [hlayered]
        exact noLists_headLayer true _ List.mem_cons_self
  exact (hhead.merge (noLists_providerDefaults.sub _)).merge hlists

/-- The lower layers of a resolved config. -/
theorem lowerLayers_resolved (md5 : String → String)
    (hroot : v parametersPath = some (.dict ()))
    (hprovider : v providerNodeConfigPath = none ∨ v providerNodeConfigPath = some (.dict ()))
    (head : Bool) : lowerLayers (resolved md5 v) head = lowerLayers v head := by
  have hgiven : v.under providerNodeConfigPath [] = none ∨
      v.under providerNodeConfigPath [] = some (.dict ()) := hprovider
  rw [lowerLayers, lowerLayers, under_resolved_provider md5 hroot,
    ← start_merge_provider (.inr (provider_merge_root hgiven)), ← start_merge_provider hgiven,
    View.merge_absorb (noLists_providerDefaults.sub _)]

/-- Each node type is over its layers already. -/
theorem layered_resolved (md5 : String → String) (hroot : v parametersPath = some (.dict ()))
    (hname : v (nodeTypePath name) ≠ none)
    (hprovider : v providerNodeConfigPath = none ∨ v providerNodeConfigPath = some (.dict ()))
    (hlists : (v.under providerNodeConfigPath).NoLists) :
    View.layered (layers (resolved md5 v) name) =
      (resolved md5 v).under (nodeConfigPath name) := by
  have hresolved : resolved md5 v providerNodeConfigPath = none ∨
      resolved md5 v providerNodeConfigPath = some (.dict ()) := by
    have hunder := congrFun (under_resolved_provider md5 hroot) []
    rw [View.under_apply, List.append_nil] at hunder
    exact .inr (hunder.trans (provider_merge_root hprovider))
  rw [layered_layers hresolved, isHeadNodeType_resolved, lowerLayers_resolved md5 hroot hprovider,
    under_resolved_nodeConfig hname, layered_layers hprovider,
    View.merge_absorb (noLists_lowerLayers hlists _)]

theorem resolved_nodeTypePath (md5 : String → String) (v : Plain) (name : Scalar) :
    resolved md5 v (nodeTypePath name) = v (nodeTypePath name) := by
  have hsame : resolved md5 v (nodeTypePath name ++ []) = v (nodeTypePath name ++ []) :=
    resolved_nodeType (by simp [nodeConfigPath, nodeTypePath])
  rwa [List.append_nil] at hsame

/-- **A resolved config** is resolved. -/
theorem resolved_resolved (md5 : String → String) (hroot : v parametersPath = some (.dict ()))
    (hprovider : v providerNodeConfigPath = none ∨ v providerNodeConfigPath = some (.dict ()))
    (hlists : (v.under providerNodeConfigPath).NoLists) :
    resolved md5 (resolved md5 v) = resolved md5 v := by
  have hparameters : withParameters (resolved md5 v) = resolved md5 v :=
    View.setAt_self (merge_parameters md5 hroot).symm
  have hlayers : withLayers (resolved md5 v) = resolved md5 v := by
    funext q
    rw [withLayers, hparameters]
    by_cases hq : ∃ n, (resolved md5 v (nodeTypePath n)).isSome = true ∧ nodeConfigPath n <+: q
    · obtain ⟨n, hn, q, rfl⟩ := hq
      have hname : v (nodeTypePath n) ≠ none := by
        have hsome := hn
        rw [resolved_nodeTypePath] at hsome
        exact Option.isSome_iff_ne_none.mp hsome
      rw [withNodeConfigs_self hn, layered_resolved md5 hroot hname hprovider hlists]
      rfl
    · exact withNodeConfigs_other fun n hn hpre => hq ⟨n, hn, hpre⟩
  have hsplit : resolved md5 v = withSsh md5 (withLayers v) := rfl
  rw [resolved, hlayers, hsplit, withSsh_withSsh]

/-! ### The keys -/

section Keys

variable {u : Plain} {p : List (Seg Scalar)}

/-- The keys on a path are accepted. -/
def acceptsPath (p : List (Seg Scalar)) : Bool :=
  p.all fun
    | .key k => acceptsKey k
    | .idx _ => true

/-- The keys of a value with another one at a path. -/
theorem keysIn_setAt (hv : KeysIn (acceptsKey · = true) v) (hu : KeysIn (acceptsKey · = true) u)
    (hp : acceptsPath p = true) :
    KeysIn (acceptsKey · = true) (v.setAt u p) := by
  intro q k hne
  by_cases hq : p <+: q ++ [.key k]
  · rcases List.prefix_concat_iff.mp hq with heq | hpre
    · exact List.all_eq_true.mp hp (.key k) (by simp [heq])
    · obtain ⟨q, rfl⟩ := hpre
      rw [List.append_assoc, View.setAt_append] at hne
      exact hu q k hne
  · rw [View.setAt_of_outside hq] at hne
    exact hv q k hne

theorem keysIn_orElse (hv : KeysIn (acceptsKey · = true) v) (hu : KeysIn (acceptsKey · = true) u)
    (hp : acceptsPath p = true) :
    KeysIn (acceptsKey · = true) (orElse v p u) := by
  unfold orElse
  split
  · exact keysIn_setAt hv hu hp
  · exact hv

theorem keysIn_scalar (s : Scalar) : KeysIn (acceptsKey · = true) (scalar s) := by
  intro q k hne
  cases q <;> exact absurd rfl hne

theorem keysIn_module (i : Nat) :
    KeysIn (acceptsKey · = true) (view moduleHeap (.ref i)).erase :=
  (keysIn_of_objects (by decide) _).map _

theorem keysIn_layers (hv : KeysIn (acceptsKey · = true) v)
    (hprovider : v providerNodeConfigPath = none ∨ v providerNodeConfigPath = some (.dict ()))
    (name : Scalar) : KeysIn (acceptsKey · = true) (View.layered (layers v name)) := by
  rw [layered_layers hprovider, lowerLayers]
  refine (KeysIn.merge (KeysIn.merge ?_ ((keysIn_module 0).sub _)) (hv.under _)).merge (hv.under _)
  cases isHeadNodeType v name with
  | false => exact fun q k hne => absurd rfl hne
  | true =>
      have hlayered : View.layered (headLayer true) = headDefaults.sub (.key "node_config") :=
        View.merge_nothing_left
      rw [hlayered, sub_headDefaults]
      exact keysIn_module 3

theorem keysIn_withLayers (hv : KeysIn (acceptsKey · = true) v)
    (hprovider : v providerNodeConfigPath = none ∨ v providerNodeConfigPath = some (.dict ())) :
    KeysIn (acceptsKey · = true) (withLayers v) := by
  have hparameters : KeysIn (acceptsKey · = true) (withParameters v) :=
    keysIn_setAt hv ((keysIn_module 0).merge (hv.under _)) (by decide)
  intro q k hne
  rw [withLayers] at hne
  by_cases hq : ∃ n, (v (nodeTypePath n)).isSome = true ∧ nodeConfigPath n <+: q ++ [.key k]
  · obtain ⟨n, hn, hpre⟩ := hq
    rcases List.prefix_concat_iff.mp hpre with heq | hpre
    · have hlast : Seg.key k = Seg.key (Scalar.str "node_config") := by
        have hsame := congrArg List.getLast? heq
        simpa [nodeConfigPath] using hsame.symm
      rw [Seg.key.inj hlast]
      rfl
    · obtain ⟨q, rfl⟩ := hpre
      rw [List.append_assoc, withNodeConfigs_self hn] at hne
      exact keysIn_layers hv hprovider n q k hne
  · rw [withNodeConfigs_other fun n hn hpre => hq ⟨n, hn, hpre⟩] at hne
    exact hparameters q k hne

/-- A resolved config has keys that are accepted. -/
theorem keysIn_resolved (md5 : String → String) (hv : KeysIn (acceptsKey · = true) v)
    (hprovider : v providerNodeConfigPath = none ∨ v providerNodeConfigPath = some (.dict ())) :
    KeysIn (acceptsKey · = true) (resolved md5 v) := by
  have hempty : KeysIn (acceptsKey · = true) emptyDict := by
    intro q k hne
    cases q <;> exact absurd rfl hne
  have hdefaults : KeysIn (acceptsKey · = true) (withSshDefaults md5 (withLayers v)) :=
    keysIn_orElse (keysIn_orElse (keysIn_orElse (keysIn_withLayers hv hprovider) hempty
      (by decide)) (keysIn_scalar _) (by decide)) (keysIn_scalar _) (by decide)
  have hkey := keysIn_setAt hdefaults (hdefaults.under sshPrivateKeyPath)
    (p := parametersPath ++ [.key "ssh_private_key"]) (by decide)
  exact keysIn_setAt hkey (hkey.under sshUserPath) (by decide)

end Keys

/-! ### A second call -/

/-- What a resolved config needs is there. -/
theorem acceptable_resolved (md5 : String → String) (hroot : v parametersPath = some (.dict ()))
    (hv : Acceptable v) (hkeys : KeysIn (acceptsKey · = true) v) :
    Acceptable (resolved md5 v) := by
  have hresolved := keysIn_resolved md5 hkeys hv.providerNodeConfig
  obtain ⟨-, -, hkey⟩ := withSshDefaults_ne_none md5 (withLayers v)
  have hlayers : withLayers v authPath = v authPath :=
    withLayers_other (by simp [parametersPath, authPath]) (by simp [nodeConfigPath, authPath])
  refine ⟨hresolved.under _, fun name => hresolved.under _, ?_, ?_, ?_⟩
  · have hunder := congrFun (under_resolved_provider md5 hroot) []
    rw [View.under_apply, List.append_nil] at hunder
    exact .inr (hunder.trans (provider_merge_root hv.providerNodeConfig))
  · right
    rw [resolved, withSsh_auth md5 _ (List.prefix_refl _), withSshDefaults,
      orElse_outside (by simp [authPath, sshPrivateKeyPath]),
      orElse_outside (by simp [authPath, sshUserPath]), orElse, hlayers]
    rcases hv.auth with hauth | hauth
    · rw [if_pos hauth]
      rfl
    · rw [if_neg (by simp [hauth]), hlayers, hauth]
  · left
    rw [resolved, withSsh_auth md5 _ (by simp [authPath, sshPrivateKeyPath])]
    exact hkey

/-- **A second call changes nothing.**  A call on an unaliased config that is acceptable, and
has only texts that are not empty as keys in the whole of it, has a result.  Any later call on
an unaliased config that is equal to the result, in any state of a process, has a result too,
and its result is the same config.  This is so for a provider whose `node_config` has no
lists. -/
theorem defaults_again {merge : Heap → Value → Value → Option Heap} {reads : Scalar → Prop}
    {h : Heap} {c : Nat} (md5 : String → String)
    (hmerge : DeepMerges reads (acceptsKey · = true) merge)
    (hproc : Process reads merge md5 h) (hu : Unaliased h c) (hacceptable : Acceptable (plain h c))
    (hkeys : KeysIn (acceptsKey · = true) (plain h c))
    (hlists : ((plain h c).under providerNodeConfigPath).NoLists) :
    ∃ h', applyConfigDefaults merge md5 h (.ref c) = some h' ∧
      ∀ h₂ c₂, Process reads merge md5 h₂ → Unaliased h₂ c₂ → plain h₂ c₂ = plain h' c →
        ∃ h₂', applyConfigDefaults merge md5 h₂ (.ref c₂) = some h₂' ∧
          plain h₂' c₂ = plain h' c := by
  have hcalls : ∀ {h c}, Process reads merge md5 h → Unaliased h c → Acceptable (plain h c) →
      ∃ h', applyConfigDefaults merge md5 h (.ref c) = some h' ∧
        plain h' c = resolved md5 (plain h c) := by
    intro h c hproc hu hacceptable
    have hends : Ends (Acceptable (plain h c)) (applyConfigDefaults merge md5 h (.ref c))
        fun h' => ConfigReady h' c [[], parametersPath, authPath] (resolved md5 (plain h c)) :=
      applyConfigDefaults_ends hmerge
        { hu with
          defaults := hproc.defaults hmerge
          read := hacceptable.accepts.mono hmerge.accepted }
    obtain ⟨h', hcall, hready⟩ := hends.some_of hacceptable
    exact ⟨h', hcall, hready.value⟩
  obtain ⟨pm, hpm⟩ := hu.parameters
  have hroot : plain h c parametersPath = some (.dict ()) := erase_dict hpm
  obtain ⟨h', hcall, hvalue⟩ := hcalls hproc hu hacceptable
  refine ⟨h', hcall, fun h₂ c₂ hproc₂ hu₂ hsame => ?_⟩
  rw [hvalue] at hsame ⊢
  have hacceptable₂ := acceptable_resolved md5 hroot hacceptable hkeys
  rw [← hsame] at hacceptable₂
  obtain ⟨h₂', hcall₂, hvalue₂⟩ := hcalls hproc₂ hu₂ hacceptable₂
  refine ⟨h₂', hcall₂, ?_⟩
  rw [hvalue₂, hsame]
  exact resolved_resolved md5 hroot hacceptable.providerNodeConfig hlists

theorem defaults_again_twoNodeTypes :
    ∃ h', applyConfigDefaults (deepMerge acceptsKey) id (twoNodeTypes (.ref 7) 11) (.ref 4) =
        some h' ∧
      ∀ h₂ c₂, Process (readsKey · = true) (deepMerge acceptsKey) id h₂ → Unaliased h₂ c₂ →
        plain h₂ c₂ = plain h' 4 →
        ∃ h₂', applyConfigDefaults (deepMerge acceptsKey) id h₂ (.ref c₂) = some h₂' ∧
          plain h₂' c₂ = plain h' 4 := by
  have hproc : Process (readsKey · = true) (deepMerge acceptsKey) id (twoNodeTypes (.ref 7) 11) :=
    .other .loaded (by decide)
  have hvalid : Valid (twoNodeTypes (.ref 7) 11) := by decide
  have hu : Unaliased (twoNodeTypes (.ref 7) 11) 4 :=
    shaped_twoNodeTypes.unaliased hvalid (by decide) (by decide)
  have hkeys : KeysIn (acceptsKey · = true) (plain (twoNodeTypes (.ref 7) 11) 4) :=
    (keysIn_of_objects (by decide) _).map _
  have hlists : (plain (twoNodeTypes (.ref 7) 11) 4).NoLists := by
    apply noLists_of_objects hvalid (x := .ref 4) (by decide)
    intro o ho l hl
    subst hl
    simp [twoNodeTypes, moduleHeap] at ho
  exact defaults_again id (deepMerge_deepMerges readsKey_of_acceptsKey) hproc hu
    ⟨hkeys.under _, fun _ => hkeys.under _, .inr (by decide), .inr (by decide), .inl (by decide)⟩
    hkeys fun p => hlists _

/-- A config whose provider has a list in its `node_config`. -/
def listConfig : Heap :=
  moduleHeap ++ [
    .dict ⟨[
      ("provider", .ref 5),
      ("available_node_types", .ref 9),
      ("auth", .ref 12)]⟩,
    .dict ⟨[("parameters", .ref 6)]⟩,
    .dict ⟨[("node_config", .ref 7)]⟩,
    .dict ⟨[("capabilities", .ref 8)]⟩,
    .list [text "vpn"],
    .dict ⟨[("worker", .ref 10)]⟩,
    .dict ⟨[("node_config", .ref 11)]⟩,
    .dict ⟨[]⟩,
    .dict ⟨[("ssh_private_key", text "/root/.ssh/id_rsa")]⟩]

/-- **A list grows** with a second call. -/
theorem list_grows :
    ((applyConfigDefaults (deepMerge acceptsKey) id listConfig (.ref 4)).map fun h =>
        plain h 4 (nodeConfigPath "worker" ++ [.key "capabilities"])) = some (some (.list () 1)) ∧
    (((applyConfigDefaults (deepMerge acceptsKey) id listConfig (.ref 4)).bind fun h =>
        applyConfigDefaults (deepMerge acceptsKey) id h (.ref 4)).map fun h =>
          plain h 4 (nodeConfigPath "worker" ++ [.key "capabilities"])) =
      some (some (.list () 2)) := by
  constructor <;> decide +kernel

end ConfigDefaults
