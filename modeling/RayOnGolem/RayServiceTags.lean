import Mathlib.Data.List.Sort
import RayOnGolem.ClusterIdle
import RayOnGolem.ClusterIds
import RayOnGolem.RayServiceLive

/-!
# Tag filters

Ray finds the nodes of a cluster by their tags: `get_non_terminated_nodes_ids` returns
the live nodes that match a filter.  The match is `are_dicts_equal`, a loop over the
keys of the node's tags: a key of the filter that the node does not have is never
looked at, so such a node matches too.

Tags are an assignment to the nodes of each cluster, which `set_node_tags` changes.
Main results:

* `RayService.found_after_setNodeTags` -- a node is found by the tags that it was given;
* `RayService.tag_filter_exact` -- the answer is exact if and only if every live node
  that agrees with the filter has all keys of the filter;
* `RayService.untagged_node_returned` -- a node without the tag is returned.
-/

section Dicts

variable {κ ν : Type*} [DecidableEq κ] [DecidableEq ν]

/-- `are_dicts_equal`. -/
def areDictsEqual (dict1 dict2 : Dict κ ν) : Bool :=
  dict1.keys.all fun key => dict2.get key = none || dict1.get key = dict2.get key

/-- A dictionary has every key of another one, with the same value. -/
def Dict.Contains (d e : Dict κ ν) : Prop := ∀ key ∈ e.keys, d.get key = e.get key

instance (d e : Dict κ ν) : Decidable (d.Contains e) :=
  inferInstanceAs (Decidable (∀ key ∈ e.keys, d.get key = e.get key))

section Contains

omit [DecidableEq ν]

variable {d e f : Dict κ ν}

theorem Dict.Contains.mem_keys (h : d.Contains e) {key : κ} (hkey : key ∈ e.keys) :
    key ∈ d.keys := by
  rw [Dict.mem_keys_iff, h key hkey]
  exact Dict.mem_keys_iff.mp hkey

theorem Dict.Contains.trans (h : d.Contains e) (h' : e.Contains f) : d.Contains f := by
  intro key hkey
  rw [h key (h'.mem_keys hkey), h' key hkey]

end Contains

/-- Dictionaries are "equal" when they agree on the keys of both. -/
theorem areDictsEqual_iff {d e : Dict κ ν} :
    areDictsEqual d e = true ↔ ∀ key ∈ d.keys, key ∈ e.keys → d.get key = e.get key := by
  unfold areDictsEqual
  rw [List.all_eq_true]
  apply forall_congr'
  intro key
  apply imp_congr_right
  intro _
  rw [Dict.mem_keys_iff]
  by_cases h : e.get key = none <;> simp [h]

/-- What `are_dicts_equal` misses to say that the first one contains the second. -/
theorem contains_iff {d e : Dict κ ν} :
    d.Contains e ↔ areDictsEqual d e = true ∧ ∀ key ∈ e.keys, key ∈ d.keys := by
  rw [areDictsEqual_iff]
  constructor
  · intro h
    exact ⟨fun key _ hkey => h key hkey, fun _ hkey => h.mem_keys hkey⟩
  · rintro ⟨hagree, hkeys⟩ key hkey
    exact hagree key (hkeys key hkey) hkey

end Dicts

namespace Cluster

open Runs

variable {s : Cluster}

/-- The registered nodes among all nodes, in the order of creation. -/
theorem IdsOrdered.registered_eq (h : IdsOrdered s) :
    (List.range s.allNodes.length).filter (· ∈ s.nodes.values) = s.nodes.values := by
  apply List.Pairwise.eq_of_mem_iff (r := (· < ·)) (List.pairwise_lt_range.filter _) h.values
  intro n
  rw [List.mem_filter, List.mem_range]
  constructor
  · rintro ⟨-, hn⟩
    simpa using hn
  · intro hn
    exact ⟨h.node_lt hn, by simpa using hn⟩

/-! ### The answer for one cluster -/

/-- The id of a node. -/
def nodeId (s : Cluster) (n : Nat) : Option Nat := (s.allNodes[n]?).map NodeView.nodeId

/-- `get_non_terminated_nodes_ids` inside of the cluster's context. -/
def getNonTerminatedNodesIds (s : Cluster) (tags : Nat → Tags) (tagsToMatch : Option Tags) :
    List Nat :=
  match tagsToMatch with
  | none => s.getNonTerminatedNodes.filterMap s.nodeId
  | some tagsToMatch =>
      (s.getNonTerminatedNodes.filter fun n =>
        areDictsEqual (tags n) tagsToMatch).filterMap s.nodeId

/-- The exact answer: of all nodes in the order of creation, the ids of the registered
live ones whose tags contain the filter. -/
def matchingIds (s : Cluster) (tags : Nat → Tags) (tagsToMatch : Tags) : List Nat :=
  ((List.range s.allNodes.length).filter fun n =>
    n ∈ s.nodes.values ∧ s.isLive n ∧ (tags n).Contains tagsToMatch).filterMap s.nodeId

theorem nodeId_ne_none {n : Nat} (h : n ∈ s.getNonTerminatedNodes) : s.nodeId n ≠ none := by
  obtain ⟨v, hv, -, -⟩ := live_of_getNonTerminatedNodes h
  simp [nodeId, hv]

/-- Dropping elements is seen in the ids. -/
theorem filterMap_filter_eq_iff {α β : Type*} {f : α → Option β} {p : α → Bool} {l : List α}
    (hf : ∀ a ∈ l, f a ≠ none) :
    (l.filter p).filterMap f = l.filterMap f ↔ ∀ a ∈ l, p a = true := by
  have hlength : ∀ l' : List α, (∀ a ∈ l', f a ≠ none) → (l'.filterMap f).length = l'.length := by
    intro l' hl'
    induction l' with
    | nil => rfl
    | cons a l' ih =>
        obtain ⟨b, hb⟩ := Option.ne_none_iff_exists'.mp (hl' a List.mem_cons_self)
        rw [List.filterMap_cons_some hb, List.length_cons, List.length_cons,
          ih fun c hc => hl' c (List.mem_cons_of_mem a hc)]
  constructor
  · intro heq
    have hlen := congrArg List.length heq
    rw [hlength _ fun a ha => hf a (List.mem_of_mem_filter ha), hlength l hf] at hlen
    exact List.length_filter_eq_length_iff.mp hlen
  · intro hall
    rw [List.filter_eq_self.mpr hall]

/-- The exact answer drops those of the returned nodes that lack a key of the filter. -/
theorem IdsOrdered.matchingIds_eq (h : IdsOrdered s) (tags : Nat → Tags) (tagsToMatch : Tags) :
    s.matchingIds tags tagsToMatch =
      ((s.getNonTerminatedNodes.filter fun n => areDictsEqual (tags n) tagsToMatch).filter
        fun n => ∀ key ∈ tagsToMatch.keys, key ∈ (tags n).keys).filterMap s.nodeId := by
  let agrees : Nat → Bool := fun n => areDictsEqual (tags n) tagsToMatch
  let keys : Nat → Bool := fun n => ∀ key ∈ tagsToMatch.keys, key ∈ (tags n).keys
  have hsplit : (fun n => decide (n ∈ s.nodes.values ∧ s.isLive n ∧
      (tags n).Contains tagsToMatch)) =
      fun n => (keys n && agrees n && s.isLive n) && decide (n ∈ s.nodes.values) := by
    funext n
    rw [Bool.eq_iff_iff]
    simp only [contains_iff, keys, agrees, Bool.and_eq_true, decide_eq_true_eq]
    tauto
  calc s.matchingIds tags tagsToMatch
      = (((List.range s.allNodes.length).filter (· ∈ s.nodes.values)).filter fun n =>
          keys n && agrees n && s.isLive n).filterMap s.nodeId := by
        rw [matchingIds, List.filter_filter, hsplit]
    _ = (s.nodes.values.filter fun n => keys n && agrees n && s.isLive n).filterMap
          s.nodeId := by
        rw [h.registered_eq]
    _ = ((s.getNonTerminatedNodes.filter agrees).filter keys).filterMap s.nodeId := by
        rw [getNonTerminatedNodes, List.filter_filter, List.filter_filter]

/-- **The answer of a cluster is exact** if and only if every live node that agrees with
the filter has all its keys. -/
theorem IdsOrdered.exact_iff (h : IdsOrdered s) (tags : Nat → Tags) (tagsToMatch : Tags) :
    s.getNonTerminatedNodesIds tags (some tagsToMatch) = s.matchingIds tags tagsToMatch ↔
      ∀ n ∈ s.getNonTerminatedNodes, areDictsEqual (tags n) tagsToMatch = true →
        ∀ key ∈ tagsToMatch.keys, key ∈ (tags n).keys := by
  rw [h.matchingIds_eq, getNonTerminatedNodesIds, eq_comm, filterMap_filter_eq_iff]
  · simp only [List.mem_filter, decide_eq_true_eq, and_imp]
  · intro n hn
    exact nodeId_ne_none (List.mem_of_mem_filter hn)

end Cluster

namespace RayService

open Runs

variable {digest : NodeConfigData → String} {s : RayService}

/-- `get_non_terminated_nodes_ids`; a name without a cluster has no nodes. -/
def getNonTerminatedNodesIds (s : RayService) (tags : Nat → Nat → Tags) (clusterName : String)
    (tagsToMatch : Option Tags) : List Nat :=
  match s.clusters.get clusterName with
  | some c =>
      match s.allClusters[c]? with
      | some nc => nc.cluster.getNonTerminatedNodesIds (tags c) tagsToMatch
      | none => []
  | none => []

/-- The exact answer. -/
def matchingIds (s : RayService) (tags : Nat → Nat → Tags) (clusterName : String)
    (tagsToMatch : Tags) : List Nat :=
  match s.clusters.get clusterName with
  | some c =>
      match s.allClusters[c]? with
      | some nc => nc.cluster.matchingIds (tags c) tagsToMatch
      | none => []
  | none => []

/-- `set_node_tags`: `none` when it raises, as there is no such cluster or node. -/
def setNodeTags (s : RayService) (tags : Nat → Nat → Tags) (clusterName : String) (nodeId : Nat)
    (new : Tags) : Option (Nat → Nat → Tags) := do
  let c ← s.clusters.get clusterName
  let nc ← s.allClusters[c]?
  let n ← nc.cluster.nodes.get nodeId
  return Function.update tags c (Function.update (tags c) n ((tags c n).update new))

/-- After `set_node_tags` the node has the new tags beside its old ones, and no other node
changed. -/
theorem setNodeTags_merges {tags tags' : Nat → Nat → Tags} {clusterName : String}
    {nodeId c n : Nat} {nc : NamedCluster} {new : Tags} (hnew : new.keys.Nodup)
    (hc : s.clusters.get clusterName = some c) (hnc : s.allClusters[c]? = some nc)
    (hn : nc.cluster.nodes.get nodeId = some n)
    (h : s.setNodeTags tags clusterName nodeId new = some tags') :
    (tags' c n).Contains new ∧
      (∀ key, key ∉ new.keys → (tags' c n).get key = (tags c n).get key) ∧
      ∀ c' n', (c', n') ≠ (c, n) → tags' c' n' = tags c' n' := by
  obtain rfl : _ = tags' := by simpa [setNodeTags, hc, hnc, hn] using h
  have hget : ∀ key, ((tags c n).update new).get key = (new.get key).or ((tags c n).get key) :=
    Dict.get_update hnew
  refine ⟨fun key hkey => ?_, fun key hkey => ?_, fun c' n' hne => ?_⟩
  · obtain ⟨value, hvalue⟩ := Option.ne_none_iff_exists'.mp (Dict.mem_keys_iff.mp hkey)
    simp [hget, hvalue]
  · have hnone : new.get key = none := by simpa [Dict.mem_keys_iff] using hkey
    simp [hget, hnone]
  · by_cases hc' : c' = c
    · subst hc'
      have hn' : n' ≠ n := fun heq => hne (by rw [heq])
      simp [hn']
    · simp [hc']

/-- **A node is found by the tags that it was given.**  After `set_node_tags` a live node
matches each filter whose tags are among the new ones, and matches no filter that has another
value for one of them. -/
theorem found_after_setNodeTags (h : Reachable Initial (step digest) s)
    {tags tags' : Nat → Nat → Tags} {clusterName : String} {nodeId c n : Nat} {nc : NamedCluster}
    {new : Tags} (hnew : new.keys.Nodup) (hc : s.clusters.get clusterName = some c)
    (hnc : s.allClusters[c]? = some nc) (hn : nc.cluster.nodes.get nodeId = some n)
    (hset : s.setNodeTags tags clusterName nodeId new = some tags') (tagsToMatch : Tags) :
    (n ∈ nc.cluster.getNonTerminatedNodes → new.Contains tagsToMatch →
      nodeId ∈ s.getNonTerminatedNodesIds tags' clusterName (some tagsToMatch)) ∧
    ((∃ key ∈ new.keys, key ∈ tagsToMatch.keys ∧ tagsToMatch.get key ≠ new.get key) →
      nodeId ∉ s.getNonTerminatedNodesIds tags' clusterName (some tagsToMatch)) := by
  obtain ⟨hgiven, -, -⟩ := setNodeTags_merges hnew hc hnc hn hset
  have hreach : Reachable Cluster.Initial (Cluster.step digest) nc.cluster :=
    Reach.cluster (fun _ _ _ _ _ _ => trivial) (fun _ _ _ => trivial) h c nc hnc
  have hordered := Cluster.idsOrdered_of_reach hreach
  simp only [getNonTerminatedNodesIds, hc, hnc, Cluster.getNonTerminatedNodesIds,
    List.mem_filterMap, List.mem_filter]
  constructor
  · intro hlive hcontains
    obtain ⟨v, hv, rfl⟩ := hordered.named nodeId n hn
    have htags : (tags' c n).Contains tagsToMatch := hgiven.trans hcontains
    exact ⟨n, ⟨hlive, (contains_iff.mp htags).1⟩, by simp [Cluster.nodeId, hv]⟩
  · rintro ⟨key, hkey, hasked, hother⟩ ⟨m, ⟨hm, hagrees⟩, hid⟩
    obtain ⟨-, -, hmem, -⟩ := Cluster.live_of_getNonTerminatedNodes hm
    obtain ⟨w, hw, hnamed⟩ := hordered.registered hmem
    -- no other node has this id
    obtain rfl : nodeId = w.nodeId := by simpa [Cluster.nodeId, hw, eq_comm] using hid
    obtain rfl : n = m := Option.some.inj (hn.symm.trans hnamed)
    have hsame := areDictsEqual_iff.mp hagrees key (hgiven.mem_keys hkey) hasked
    exact hother (hsame.symm.trans (hgiven key hkey))

/-- **The condition**: every live node of the cluster that agrees with the filter on the
keys they share has all keys of the filter. -/
def AllKeysPresent (s : RayService) (tags : Nat → Nat → Tags) (clusterName : String)
    (tagsToMatch : Tags) : Prop :=
  ∀ c nc, s.clusters.get clusterName = some c → s.allClusters[c]? = some nc →
    ∀ n ∈ nc.cluster.getNonTerminatedNodes, areDictsEqual (tags c n) tagsToMatch = true →
      ∀ key ∈ tagsToMatch.keys, key ∈ (tags c n).keys

/-- **Tag filtering is exact if and only if no live node is let through for want of a
key**, in every reachable state and for every assignment of tags. -/
theorem tag_filter_exact (h : Reachable Initial (step digest) s) (tags : Nat → Nat → Tags)
    (clusterName : String) (tagsToMatch : Tags) :
    s.getNonTerminatedNodesIds tags clusterName (some tagsToMatch) =
        s.matchingIds tags clusterName tagsToMatch ↔
      AllKeysPresent s tags clusterName tagsToMatch := by
  unfold getNonTerminatedNodesIds matchingIds AllKeysPresent
  cases hc : s.clusters.get clusterName with
  | none => simp
  | some c =>
      cases hnc : s.allClusters[c]? with
      | none =>
          simp only [hnc, true_iff]
          intro c' nc' hc' hnc'
          obtain rfl := Option.some.inj hc'
          rw [hnc] at hnc'
          cases hnc'
      | some nc =>
          have hreach : Reachable Cluster.Initial (Cluster.step digest) nc.cluster :=
            Reach.cluster (fun _ _ _ _ _ _ => trivial) (fun _ _ _ => trivial) h c nc hnc
          have hordered := Cluster.idsOrdered_of_reach hreach
          simp only [hnc]
          rw [hordered.exact_iff]
          constructor
          · intro hall c' nc' hc' hnc'
            obtain rfl := Option.some.inj hc'
            obtain rfl := Option.some.inj (hnc.symm.trans hnc')
            exact hall
          · intro hall
            exact hall c nc rfl hnc

/-- The tags of every node in the examples: the kind of the node. -/
def kindTags (kind : String) : Tags := ⟨[("ray-node-type", kind)]⟩

theorem tag_filter_exact_worker :
    ∃ s, exec (step Cluster.exampleDigest) firstRequest {} = some s ∧
      s.getNonTerminatedNodesIds (fun _ _ => kindTags "worker") "cluster"
        (some (kindTags "worker")) = [0] ∧
      (s.getNonTerminatedNodesIds (fun _ _ => kindTags "worker") "cluster"
          (some (kindTags "worker")) =
        s.matchingIds (fun _ _ => kindTags "worker") "cluster" (kindTags "worker") ↔
        AllKeysPresent s (fun _ _ => kindTags "worker") "cluster" (kindTags "worker")) := by
  refine ⟨_, rfl, by decide, ?_⟩
  have hreach : Reachable Initial (step Cluster.exampleDigest) _ :=
    Reach.exec firstRequest (.start rfl) rfl
  exact tag_filter_exact hreach (fun _ _ => kindTags "worker") "cluster" (kindTags "worker")

/-- **A node without the tag is returned**, as the keys of the filter are never looked
up in the node's tags. -/
theorem untagged_node_returned :
    ¬ ∀ s, Reachable Initial (step Cluster.exampleDigest) s →
      ∀ (tags : Nat → Nat → Tags) (clusterName : String) (tagsToMatch : Tags),
        s.getNonTerminatedNodesIds tags clusterName (some tagsToMatch) =
          s.matchingIds tags clusterName tagsToMatch := by
  intro hall
  have hrun : ∃ s, exec (step Cluster.exampleDigest) firstRequest {} = some s ∧
      s.getNonTerminatedNodesIds (fun _ _ => {}) "cluster" (some (kindTags "head")) = [0] ∧
      s.matchingIds (fun _ _ => {}) "cluster" (kindTags "head") = [] :=
    ⟨_, rfl, by decide, by decide⟩
  obtain ⟨s, hs, hanswer, hexact⟩ := hrun
  have heq := hall s (Reach.exec firstRequest (.start rfl) hs) (fun _ _ => {}) "cluster"
    (kindTags "head")
  rw [hanswer, hexact] at heq
  cases heq

end RayService
