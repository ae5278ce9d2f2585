import RayOnGolem.Lib.Upserts
import RayOnGolem.Reputation

/-!
# An update that runs alone

`ReputationUpdater.update` as one function of the tables and the payload, as it runs when
nobody else writes.  Its loop compares every score with the record it read and saves only
changed records; what it does to the table is still a list of upserts, one for each entry
that it does not ignore (`reputations_updateLoop`), so that the rules for upserts give the
outcome.

Main results:

* `update_last_value_wins` -- the records and the counters after an update, and that the
  same update changes nothing when it runs again;
* `update_alone` -- the statements of an update task that runs alone compute this function.
-/

namespace Reputation

open Runs Upserts

variable {S : Type*}

/-- An entry that is not ignored: `provider_id and scores`. -/
def ProviderData.accepted (e : ProviderData S) : Option (String × Dict String (Option S)) :=
  match e.providerId, e.scores with
  | some providerId, some scores =>
      if providerId ≠ "" ∧ scores.items ≠ [] then some (providerId, scores) else none
  | _, _ => none

/-- Induction over a payload by what the loop does with its first entry. -/
@[elab_as_elim]
theorem providers_induction {P : List (ProviderData S) → Prop} (nil : P [])
    (ignored : ∀ e rest, e.accepted = none → P rest → P (e :: rest))
    (accepted : ∀ e p scores rest, e.accepted = some (p, scores) → P rest → P (e :: rest))
    (providers : List (ProviderData S)) : P providers := by
  induction providers with
  | nil => exact nil
  | cons e rest ih =>
      cases he : e.accepted with
      | none => exact ignored e rest he ih
      | some entry => exact accepted e entry.1 entry.2 rest he ih

/-- The scores of an entry that are not `None`. -/
def scoreValues (scores : Dict String (Option S)) : Changes S where
  successRate := (scores.get "successRate").join
  uptime := (scores.get "uptime").join

/-- The last value of a score that is not `None`, in the entries of a provider that are not
ignored. -/
def lastScore (column : String) (providerId : String) (providers : List (ProviderData S)) :
    Option S :=
  (providers.filterMap fun e =>
    match e.accepted with
    | some (p, scores) => if p = providerId then (scores.get column).join else none
    | none => none).getLast?

/-- The payload has an entry of the provider that is not ignored. -/
def Scored (providerId : String) (providers : List (ProviderData S)) : Prop :=
  ∃ e ∈ providers, ∃ scores, e.accepted = some (providerId, scores)

section

variable [DecidableEq S]

/-- The body of the loop for an entry that is not ignored: the tables, `created` and
`updated`. -/
def updateProvider (network providerId : String) (scores : Dict String (Option S)) (db : Db S) :
    Db S × Bool × Bool :=
  let db := db.networkGetOrCreate network
  let db := db.nodeGetOrCreate providerId
  let (db, nodeReputation, created) := db.getOrCreate ⟨providerId, network⟩
  let changes := scoreChanges scores nodeReputation
  if changes.updated then
    (db.save ⟨providerId, network⟩ (nodeReputation.assign changes), created, true)
  else (db, created, false)

/-- The loop of `update`. -/
def updateLoop (network : String) : List (ProviderData S) → Db S → Counts → Db S × Counts
  | [], db, c => (db, c)
  | e :: rest, db, c =>
      let c := { c with total := c.total + 1 }
      match e.accepted with
      | none => updateLoop network rest db { c with ignored := c.ignored + 1 }
      | some (providerId, scores) =>
          let (db, created, updated) := updateProvider network providerId scores db
          updateLoop network rest db (c.close created updated)

/-- `update` with the payload `providers`: the tables and what it returns. -/
def update (network : String) (providers : List (ProviderData S)) (db : Db S) : Db S × Counts :=
  updateLoop network providers db {}

end

/-! ### The entries as upserts -/

/-- The upserts of the entries that are not ignored. -/
def scoreUpserts (network : String) (providers : List (ProviderData S)) :
    List (Key × Changes S) :=
  providers.filterMap fun e => e.accepted.map fun (p, scores) => (⟨p, network⟩, scoreValues scores)

theorem scoreUpserts_cons_ignored {e : ProviderData S} (h : e.accepted = none) (network : String)
    (rest : List (ProviderData S)) :
    scoreUpserts network (e :: rest) = scoreUpserts network rest := by
  simp [scoreUpserts, h]

theorem scoreUpserts_cons_accepted {e : ProviderData S} {p : String}
    {scores : Dict String (Option S)} (h : e.accepted = some (p, scores)) (network : String)
    (rest : List (ProviderData S)) :
    scoreUpserts network (e :: rest) =
      (⟨p, network⟩, scoreValues scores) :: scoreUpserts network rest := by
  simp [scoreUpserts, h]

theorem mem_scoreUpserts {network : String} {providers : List (ProviderData S)} {k : Key} :
    k ∈ (scoreUpserts network providers).map Prod.fst ↔
      k.network = network ∧ Scored k.node providers := by
  constructor
  · intro h
    obtain ⟨⟨k', c⟩, hmem, rfl⟩ := List.mem_map.mp h
    obtain ⟨e, he, haccepted⟩ := List.mem_filterMap.mp hmem
    obtain ⟨⟨p, scores⟩, hp, hpair⟩ := Option.map_eq_some_iff.mp haccepted
    cases hpair
    exact ⟨rfl, e, he, scores, hp⟩
  · rintro ⟨hnetwork, e, he, scores, haccepted⟩
    apply List.mem_map.mpr
    refine ⟨(⟨k.node, network⟩, scoreValues scores), ?_, ?_⟩
    · exact List.mem_filterMap.mpr ⟨e, he, by rw [haccepted]; rfl⟩
    · subst hnetwork
      rfl

theorem scored_cons {e : ProviderData S} {p q : String} {scores : Dict String (Option S)}
    {rest : List (ProviderData S)} (he : e.accepted = some (q, scores)) :
    Scored p (e :: rest) ↔ p = q ∨ Scored p rest := by
  constructor
  · rintro ⟨d, hd, scores', hscores⟩
    rcases List.mem_cons.mp hd with rfl | hd
    · rw [he] at hscores
      cases hscores
      exact Or.inl rfl
    · exact Or.inr ⟨d, hd, scores', hscores⟩
  · rintro (rfl | ⟨d, hd, hscores⟩)
    · exact ⟨e, List.mem_cons_self, scores, he⟩
    · exact ⟨d, List.mem_cons_of_mem e hd, hscores⟩

/-- An ignored entry scores nobody. -/
theorem scored_cons_ignored {e : ProviderData S} {p : String} {rest : List (ProviderData S)}
    (he : e.accepted = none) : Scored p (e :: rest) ↔ Scored p rest := by
  constructor
  · rintro ⟨d, hd, scores, hscores⟩
    rcases List.mem_cons.mp hd with rfl | hd
    · rw [he] at hscores
      cases hscores
    · exact ⟨d, hd, scores, hscores⟩
  · rintro ⟨d, hd, hscores⟩
    exact ⟨d, List.mem_cons_of_mem e hd, hscores⟩

/-- Assigning all values of an entry is the same as assigning those that differ. -/
theorem assign_scoreChanges [DecidableEq S] (scores : Dict String (Option S))
    (r : NodeReputation S) : r.assign (scoreChanges scores r) = r.assign (scoreValues scores) := by
  have hscore : ∀ current value : Option S,
      (assignedScore current value).or current = value.or current := by
    intro current value
    unfold assignedScore
    split
    · rename_i heq
      rw [heq]
      cases value <;> rfl
    · rfl
  simp [NodeReputation.assign, scoreChanges, scoreValues, hscore]

/-- A record without changed scores. -/
theorem assign_of_not_updated [DecidableEq S] {scores : Dict String (Option S)}
    {r : NodeReputation S} (h : (scoreChanges scores r).updated = false) :
    r.assign (scoreChanges scores r) = r := by
  obtain ⟨hsuccess, huptime⟩ : (scoreChanges scores r).successRate = none ∧
      (scoreChanges scores r).uptime = none := by
    simpa [Changes.updated] using h
  have hblacklisted : (scoreChanges scores r).blacklistedUntil = none := rfl
  simp [NodeReputation.assign, hsuccess, huptime, hblacklisted]

theorem getOrCreate_some {db : Db S} {k : Key} {r : NodeReputation S}
    (h : db.reputations k = some r) : db.getOrCreate k = (db, r, false) := by
  simp [Db.getOrCreate, h]

theorem getOrCreate_none {db : Db S} {k : Key} (h : db.reputations k = none) :
    db.getOrCreate k =
      ({ db with reputations := Function.update db.reputations k (some {}) }, {}, true) := by
  simp [Db.getOrCreate, h]

/-- The records after an entry that is not ignored. -/
theorem reputations_updateProvider [DecidableEq S] (network p : String)
    (scores : Dict String (Option S)) (db : Db S) :
    (updateProvider network p scores db).1.reputations =
      upsert {} NodeReputation.assign db.reputations ⟨p, network⟩ (scoreValues scores) := by
  rcases Option.eq_none_or_eq_some (db.reputations ⟨p, network⟩) with hr | ⟨r, hr⟩
  · have hget : ((db.networkGetOrCreate network).nodeGetOrCreate p).getOrCreate ⟨p, network⟩ =
        _ := getOrCreate_none hr
    simp only [updateProvider, hget, upsert, hr, Option.getD_none, ← assign_scoreChanges]
    split
    · simp [Db.save, Db.nodeGetOrCreate, Db.networkGetOrCreate]
    · rename_i hsame
      rw [assign_of_not_updated (by simpa using hsame)]
      rfl
  · have hget : ((db.networkGetOrCreate network).nodeGetOrCreate p).getOrCreate ⟨p, network⟩ =
        _ := getOrCreate_some hr
    simp only [updateProvider, hget, upsert, hr, Option.getD_some, ← assign_scoreChanges]
    split
    · rfl
    · rename_i hsame
      rw [assign_of_not_updated (by simpa using hsame), ← hr, Function.update_eq_self]
      rfl

/-- A record is created when there is none. -/
theorem created_updateProvider [DecidableEq S] (network p : String)
    (scores : Dict String (Option S)) (db : Db S) :
    (updateProvider network p scores db).2.1 = (db.reputations ⟨p, network⟩).isNone := by
  rcases Option.eq_none_or_eq_some (db.reputations ⟨p, network⟩) with hr | ⟨r, hr⟩
  · have hget : ((db.networkGetOrCreate network).nodeGetOrCreate p).getOrCreate ⟨p, network⟩ =
        _ := getOrCreate_none hr
    simp only [updateProvider, hget, hr]
    split <;> rfl
  · have hget : ((db.networkGetOrCreate network).nodeGetOrCreate p).getOrCreate ⟨p, network⟩ =
        _ := getOrCreate_some hr
    simp only [updateProvider, hget, hr]
    split <;> rfl

/-- The tables of keys after an entry that is not ignored. -/
theorem tables_updateProvider [DecidableEq S] (network p : String)
    (scores : Dict String (Option S)) (db : Db S) :
    (updateProvider network p scores db).1.networks = db.networks.insert network ∧
      (updateProvider network p scores db).1.nodes = db.nodes.insert p := by
  have hget : ∀ (db : Db S) k,
      (db.getOrCreate k).1.networks = db.networks ∧ (db.getOrCreate k).1.nodes = db.nodes := by
    intro db k
    unfold Db.getOrCreate
    split <;> exact ⟨rfl, rfl⟩
  obtain ⟨hnetworks, hnodes⟩ :=
    hget ((db.networkGetOrCreate network).nodeGetOrCreate p) ⟨p, network⟩
  simp only [updateProvider]
  split
  · exact ⟨hnetworks, hnodes⟩
  · exact ⟨hnetworks, hnodes⟩

section

variable [DecidableEq S] {network : String} {providers : List (ProviderData S)} {db : Db S}
  {c : Counts}

/-- An entry that is ignored. -/
theorem updateLoop_ignored {e : ProviderData S} (h : e.accepted = none)
    (rest : List (ProviderData S)) :
    updateLoop network (e :: rest) db c =
      updateLoop network rest db { c with total := c.total + 1, ignored := c.ignored + 1 } := by
  simp [updateLoop, h]

/-- An entry that is not ignored. -/
theorem updateLoop_accepted {e : ProviderData S} {p : String} {scores : Dict String (Option S)}
    (h : e.accepted = some (p, scores)) (rest : List (ProviderData S)) :
    updateLoop network (e :: rest) db c =
      updateLoop network rest (updateProvider network p scores db).1
        (({ c with total := c.total + 1 } : Counts).close
          (updateProvider network p scores db).2.1 (updateProvider network p scores db).2.2) := by
  simp [updateLoop, h]

/-- **The loop is the list of its upserts.** -/
theorem reputations_updateLoop :
    (updateLoop network providers db c).1.reputations =
      upserts {} NodeReputation.assign db.reputations (scoreUpserts network providers) := by
  induction providers using providers_induction generalizing db c with
  | nil => rfl
  | ignored e rest he ih => rw [updateLoop_ignored he, ih, scoreUpserts_cons_ignored he]
  | accepted e p scores rest he ih =>
      rw [updateLoop_accepted he, ih, reputations_updateProvider, scoreUpserts_cons_accepted he,
        upserts]

/-- The end of an iteration. -/
theorem close_counts (c : Counts) (created updated : Bool) :
    (c.close created updated).total = c.total ∧ (c.close created updated).ignored = c.ignored ∧
      (c.close created updated).added = c.added + created.toNat ∧
      (c.close created updated).added + (c.close created updated).updated ≤
        c.added + c.updated + 1 := by
  unfold Counts.close
  cases created
  · cases updated
    · exact ⟨rfl, rfl, rfl, Nat.le_succ _⟩
    · exact ⟨rfl, rfl, rfl, Nat.le_refl _⟩
  · refine ⟨rfl, rfl, rfl, ?_⟩
    show c.added + 1 + c.updated ≤ c.added + c.updated + 1
    omega

/-- What the counters say after the loop. -/
theorem counts_updateLoop :
    (updateLoop network providers db c).2.total = c.total + providers.length ∧
      (updateLoop network providers db c).2.ignored =
        c.ignored + providers.countP (·.accepted.isNone) ∧
      (updateLoop network providers db c).2.added = c.added +
        (created {} NodeReputation.assign db.reputations (scoreUpserts network providers)).length ∧
      (updateLoop network providers db c).2.added + (updateLoop network providers db c).2.updated +
          (updateLoop network providers db c).2.ignored ≤
        c.added + c.updated + c.ignored + providers.length := by
  induction providers using providers_induction generalizing db c with
  | nil => exact ⟨rfl, rfl, rfl, Nat.le_refl _⟩
  | ignored e rest he ih =>
      rw [updateLoop_ignored he, scoreUpserts_cons_ignored he]
      obtain ⟨htotal, hignored, hadded, hsum⟩ :=
        @ih db { c with total := c.total + 1, ignored := c.ignored + 1 }
      have hcount : (e :: rest).countP (·.accepted.isNone) =
          rest.countP (·.accepted.isNone) + 1 :=
        List.countP_cons_of_pos (by simp [he])
      rw [hcount, List.length_cons]
      dsimp only at htotal hignored hadded hsum
      exact ⟨by omega, by omega, hadded, by omega⟩
  | accepted e p scores rest he ih =>
      rw [updateLoop_accepted he, scoreUpserts_cons_accepted he, Upserts.created]
      obtain ⟨htotal, hignored, hadded, hsum⟩ :=
        @ih (updateProvider network p scores db).1
          (({ c with total := c.total + 1 } : Counts).close
            (updateProvider network p scores db).2.1 (updateProvider network p scores db).2.2)
      obtain ⟨hctotal, hcignored, hcadded, hcsum⟩ :=
        close_counts { c with total := c.total + 1 } (updateProvider network p scores db).2.1
          (updateProvider network p scores db).2.2
      have hcount : (e :: rest).countP (·.accepted.isNone) =
          rest.countP (·.accepted.isNone) :=
        List.countP_cons_of_neg (by simp [he])
      rw [reputations_updateProvider] at hadded
      rw [hcount, List.length_cons]
      dsimp only at hctotal hcignored hcadded hcsum
      refine ⟨by omega, by omega, ?_, by omega⟩
      rw [hadded, hcadded, created_updateProvider]
      cases hnew : (db.reputations ⟨p, network⟩).isNone with
      | true => simp [Nat.add_assoc, Nat.add_comm]
      | false => simp

/-- Tables that have every key of the payload. -/
def Known (network : String) (providers : List (ProviderData S)) (db : Db S) : Prop :=
  ∀ p, Scored p providers → network ∈ db.networks ∧ p ∈ db.nodes

/-- **The rows of `Network`** after the loop: that of the update is there as soon as one entry
is not ignored. -/
theorem mem_networks_updateLoop {n : String} :
    n ∈ (updateLoop network providers db c).1.networks ↔
      n ∈ db.networks ∨ n = network ∧ ∃ p, Scored p providers := by
  induction providers using providers_induction generalizing db c with
  | nil => simp [updateLoop, Scored]
  | ignored e rest he ih =>
      rw [updateLoop_ignored he, ih]
      simp only [scored_cons_ignored he]
  | accepted e p scores rest he ih =>
      have hscored : ∃ q, Scored q (e :: rest) := ⟨p, (scored_cons he).mpr (Or.inl rfl)⟩
      rw [updateLoop_accepted he, ih, (tables_updateProvider network p scores db).1,
        List.mem_insert_iff]
      constructor
      · rintro ((rfl | hn) | ⟨rfl, -⟩)
        · exact Or.inr ⟨rfl, hscored⟩
        · exact Or.inl hn
        · exact Or.inr ⟨rfl, hscored⟩
      · rintro (hn | ⟨rfl, -⟩)
        · exact Or.inl (Or.inr hn)
        · exact Or.inl (Or.inl rfl)

/-- **The rows of `Node`** after the loop: one more for each provider that has scores. -/
theorem mem_nodes_updateLoop {p : String} :
    p ∈ (updateLoop network providers db c).1.nodes ↔ p ∈ db.nodes ∨ Scored p providers := by
  induction providers using providers_induction generalizing db c with
  | nil => simp [updateLoop, Scored]
  | ignored e rest he ih => rw [updateLoop_ignored he, ih, scored_cons_ignored he]
  | accepted e q scores rest he ih =>
      rw [updateLoop_accepted he, ih, (tables_updateProvider network q scores db).2,
        List.mem_insert_iff, scored_cons he, or_assoc, or_left_comm]

/-- After the loop every key of the payload is there. -/
theorem known_updateLoop : Known network providers (updateLoop network providers db c).1 := by
  intro p hp
  exact ⟨mem_networks_updateLoop.mpr (Or.inr ⟨rfl, p, hp⟩), mem_nodes_updateLoop.mpr (Or.inr hp)⟩

/-- The loop adds no key that is there. -/
theorem Known.tables_eq (h : Known network providers db) :
    (updateLoop network providers db c).1.networks = db.networks ∧
      (updateLoop network providers db c).1.nodes = db.nodes := by
  induction providers using providers_induction generalizing db c with
  | nil => exact ⟨rfl, rfl⟩
  | ignored e rest he ih =>
      rw [updateLoop_ignored he]
      apply ih
      intro p hp
      exact h p ((scored_cons_ignored he).mpr hp)
  | accepted e q scores rest he ih =>
      rw [updateLoop_accepted he]
      obtain ⟨hnetworks, hnodes⟩ := tables_updateProvider network q scores db
      obtain ⟨hnetwork, hnode⟩ := h q ((scored_cons he).mpr (Or.inl rfl))
      rw [List.insert_of_mem hnetwork] at hnetworks
      rw [List.insert_of_mem hnode] at hnodes
      rw [← hnetworks, ← hnodes]
      apply ih
      intro p hp
      rw [hnetworks, hnodes]
      exact h p ((scored_cons he).mpr (Or.inr hp))

end

/-! ### The last value wins -/

/-- The scores of a record after some entries. -/
theorem foldl_assign {cs : List (Changes S)} (h : ∀ c ∈ cs, c.blacklistedUntil = none)
    (r : NodeReputation S) :
    cs.foldl NodeReputation.assign r =
      { successRate := ((cs.map (·.successRate)).filterMap id).getLast?.or r.successRate
        uptime := ((cs.map (·.uptime)).filterMap id).getLast?.or r.uptime
        blacklistedUntil := r.blacklistedUntil } := by
  rw [← foldl_or, ← foldl_or]
  induction cs generalizing r with
  | nil => rfl
  | cons c cs ih =>
      have hc : c.blacklistedUntil = none := h c List.mem_cons_self
      rw [List.foldl_cons, ih fun d hd => h d (List.mem_cons_of_mem c hd)]
      simp [NodeReputation.assign, hc]

/-- No entry of a payload touches the blacklist. -/
theorem blacklistedUntil_assignments {network : String} {providers : List (ProviderData S)}
    {k : Key} :
    ∀ c ∈ assignments k (scoreUpserts network providers), c.blacklistedUntil = none := by
  intro c hc
  obtain ⟨⟨k', c'⟩, hmem, hkey⟩ := List.mem_filterMap.mp hc
  obtain ⟨e, -, haccepted⟩ := List.mem_filterMap.mp hmem
  obtain ⟨⟨p, scores⟩, -, hpair⟩ := Option.map_eq_some_iff.mp haccepted
  cases hpair
  obtain ⟨-, hc⟩ := Option.ite_none_right_eq_some.mp hkey
  cases hc
  rfl

/-- The values of a column that the payload assigns to a record. -/
theorem getLast_assignments (network p column : String) (providers : List (ProviderData S))
    {f : Changes S → Option S} (hf : ∀ scores, f (scoreValues scores) = (scores.get column).join) :
    (((assignments ⟨p, network⟩ (scoreUpserts network providers)).map f).filterMap id).getLast? =
      lastScore column p providers := by
  unfold lastScore
  congr 1
  induction providers using providers_induction with
  | nil => rfl
  | ignored e rest he ih =>
      rw [scoreUpserts_cons_ignored he, ih]
      simp [he]
  | accepted e q scores rest he ih =>
      rw [scoreUpserts_cons_accepted he]
      by_cases hq : q = p
      · subst hq
        simp only [assignments, List.filterMap_cons, if_true, List.map_cons, id, hf, he]
        simp only [assignments, id] at ih
        rw [ih]
      · have hkey : (⟨q, network⟩ : Key) ≠ ⟨p, network⟩ := fun h => hq (Key.mk.inj h).1
        simp only [assignments, List.filterMap_cons, hkey, hq, if_false, he]
        exact ih

theorem Db.eq_of_tables {db db' : Db S} (hnetworks : db.networks = db'.networks)
    (hnodes : db.nodes = db'.nodes) (hreputations : db.reputations = db'.reputations) :
    db = db' := by
  cases db
  cases db'
  simp_all

/-- What an update of `network` with the payload `providers` does to the tables, and what it
counts.  The network name and the provider ids fit their columns, of 32 and 42 characters. -/
structure LastValueWins (network : String) (providers : List (ProviderData S)) (db db' : Db S)
    (counts : Counts) : Prop where
  scored : ∀ p, Scored p providers → ∃ r, db'.reputations ⟨p, network⟩ = some r ∧
    r.successRate =
      (lastScore "successRate" p providers).or (db.row ⟨p, network⟩).successRate ∧
    r.uptime = (lastScore "uptime" p providers).or (db.row ⟨p, network⟩).uptime ∧
    r.blacklistedUntil = (db.row ⟨p, network⟩).blacklistedUntil
  others : ∀ k, ¬ (k.network = network ∧ Scored k.node providers) →
    db'.reputations k = db.reputations k
  networks : ∀ n, n ∈ db'.networks ↔ n ∈ db.networks ∨ n = network ∧ ∃ p, Scored p providers
  nodes : ∀ p, p ∈ db'.nodes ↔ p ∈ db.nodes ∨ Scored p providers
  total : counts.total = providers.length
  ignored : counts.ignored = providers.countP (·.accepted.isNone)
  added : ∃ keys : List Key, keys.Nodup ∧
    (∀ k, k ∈ keys ↔ db.reputations k = none ∧ db'.reputations k ≠ none) ∧
    counts.added = keys.length
  bounded : counts.added + counts.updated + counts.ignored ≤ counts.total

section

variable [DecidableEq S]

/-- The records that the payload has scores for. -/
theorem reputations_update_scored {network p : String} {providers : List (ProviderData S)}
    (h : Scored p providers) (db : Db S) :
    (update network providers db).1.reputations ⟨p, network⟩ =
      some
        { successRate :=
            (lastScore "successRate" p providers).or (db.row ⟨p, network⟩).successRate
          uptime := (lastScore "uptime" p providers).or (db.row ⟨p, network⟩).uptime
          blacklistedUntil := (db.row ⟨p, network⟩).blacklistedUntil } := by
  have hmem : (⟨p, network⟩ : Key) ∈ (scoreUpserts network providers).map Prod.fst :=
    mem_scoreUpserts.mpr ⟨rfl, h⟩
  unfold update
  rw [reputations_updateLoop, upserts_of_mem hmem, foldl_assign blacklistedUntil_assignments,
    getLast_assignments network p "successRate" providers fun _ => rfl,
    getLast_assignments network p "uptime" providers fun _ => rfl]
  rfl

/-- All other records. -/
theorem reputations_update_other {network : String} {providers : List (ProviderData S)} {k : Key}
    (h : ¬ (k.network = network ∧ Scored k.node providers)) (db : Db S) :
    (update network providers db).1.reputations k = db.reputations k := by
  unfold update
  rw [reputations_updateLoop]
  exact upserts_of_not_mem fun hmem => h (mem_scoreUpserts.mp hmem)

/-- The records that are created. -/
theorem mem_created_update {network : String} {providers : List (ProviderData S)} {db : Db S}
    {k : Key} :
    k ∈ created {} NodeReputation.assign db.reputations (scoreUpserts network providers) ↔
      db.reputations k = none ∧ (update network providers db).1.reputations k ≠ none := by
  rw [mem_created, mem_scoreUpserts]
  refine and_congr_right fun hnone => ⟨?_, fun hsome => ?_⟩
  · rintro ⟨rfl, hscored⟩
    simp [reputations_update_scored hscored db]
  · by_contra hother
    exact hsome (by rw [reputations_update_other hother, hnone])

/-- Scores that were assigned are not assigned again. -/
theorem reputations_update_twice (network : String) (providers : List (ProviderData S))
    (db : Db S) :
    (update network providers (update network providers db).1).1.reputations =
      (update network providers db).1.reputations := by
  simp only [update, reputations_updateLoop]
  apply upserts_twice
  intro k v
  simp only [foldl_assign blacklistedUntil_assignments, NodeReputation.mk.injEq, and_true]
  constructor
  · rw [← Option.or_assoc, Option.or_self]
  · rw [← Option.or_assoc, Option.or_self]

/-- **An update gives every record the last value of each score**, for every payload and all
tables: it creates the missing records and the rows of their network and providers, touches no
other record and no blacklist, and counts its entries and the records it creates; the same
update once more creates nothing and leaves the tables as they are. -/
theorem update_last_value_wins (network : String) (providers : List (ProviderData S))
    (db : Db S) :
    LastValueWins network providers db (update network providers db).1
        (update network providers db).2 ∧
      (update network providers (update network providers db).1).1 =
        (update network providers db).1 ∧
      (update network providers (update network providers db).1).2.added = 0 := by
  obtain ⟨htotal, hignored, hadded, hsum⟩ := @counts_updateLoop S _ network providers db {}
  have htwice := reputations_update_twice network providers db
  refine ⟨?_, ?_, ?_⟩
  · refine ⟨fun p hp => ⟨_, reputations_update_scored hp db, rfl, rfl, rfl⟩,
      fun k hk => reputations_update_other hk db, fun _ => mem_networks_updateLoop,
      fun _ => mem_nodes_updateLoop, ?_, ?_, ?_, ?_⟩
    · simpa [update] using htotal
    · simpa [update] using hignored
    · refine ⟨_, nodup_created, fun k => mem_created_update, ?_⟩
      simpa [update] using hadded
    · simp only [update, htotal] at hsum ⊢
      omega
  · have hknown : Known network providers (update network providers db).1 := known_updateLoop
    obtain ⟨hnetworks, hnodes⟩ := hknown.tables_eq (c := {})
    exact Db.eq_of_tables hnetworks hnodes htwice
  · obtain ⟨-, -, hagain, -⟩ :=
      @counts_updateLoop S _ network providers (update network providers db).1 {}
    have hnone : created {} NodeReputation.assign (update network providers db).1.reputations
        (scoreUpserts network providers) = [] := by
      apply List.eq_nil_iff_forall_not_mem.mpr
      intro k hk
      obtain ⟨hmissing, hmade⟩ := mem_created_update.mp hk
      rw [htwice] at hmade
      exact hmade hmissing
    show (updateLoop network providers (update network providers db).1 {}).2.added = 0
    rw [hagain, hnone]
    rfl

end

/-! ### The statements of the update -/

theorem continueUpdate_ignored {e : ProviderData S} (h : e.accepted = none) (network : String)
    (c : Counts) (rest : List (ProviderData S)) :
    continueUpdate network c (e :: rest) =
      continueUpdate network { c with total := c.total + 1, ignored := c.ignored + 1 } rest := by
  obtain ⟨providerId, scores⟩ := e
  cases providerId with
  | none => rfl
  | some p =>
      cases scores with
      | none => rfl
      | some scores =>
          have hnot : ¬ (p ≠ "" ∧ scores.items ≠ []) := by
            intro hp
            simp [ProviderData.accepted, hp] at h
          simp [continueUpdate, nextProvider, hnot]

theorem continueUpdate_accepted {e : ProviderData S} {p : String}
    {scores : Dict String (Option S)} (h : e.accepted = some (p, scores)) (network : String)
    (c : Counts) (rest : List (ProviderData S)) :
    continueUpdate network c (e :: rest) =
      .update network { c with total := c.total + 1 } (.network p scores rest) := by
  obtain ⟨providerId, scores'⟩ := e
  cases providerId with
  | none => cases h
  | some q =>
      cases scores' with
      | none => cases h
      | some scores' =>
          obtain ⟨hq, hpair⟩ := Option.ite_none_right_eq_some.mp h
          cases hpair
          simp [continueUpdate, nextProvider, hq]

/-- The task that goes on. -/
theorem tasks_goto {s : State S} {t : Nat} {task : Task S} (h : s.tasks[t]? = some task)
    (task' : Task S) : (s.tasks.set t task')[t]? = some task' := by
  obtain ⟨hlt, -⟩ := List.getElem?_eq_some_iff.mp h
  simp [hlt]

section

variable [DecidableEq S]

theorem step_statement {s : State S} {t : Nat} {network : String} {c : Counts} {pc : UpdatePc S}
    (h : s.tasks[t]? = some (.update network c pc)) :
    step s (.statement t) = updateStatement s t network c pc := by
  simp [step, h]

/-- The statements of one entry, with nobody else's in between. -/
theorem entry_alone {s : State S} {t : Nat} {network p : String} {c : Counts}
    {scores : Dict String (Option S)} {rest : List (ProviderData S)}
    (h : s.tasks[t]? = some (.update network c (.network p scores rest))) :
    ∃ n s', exec step (List.replicate n (.statement t)) s = some s' ∧
      s'.db = (updateProvider network p scores s.db).1 ∧
      s'.tasks[t]? = some (continueUpdate network
        (c.close (updateProvider network p scores s.db).2.1
          (updateProvider network p scores s.db).2.2) rest) := by
  -- the statements up to the record read and write what `updateProvider` does
  let s₁ : State S :=
    { s with db := s.db.networkGetOrCreate network }.goto t
      (.update network c (.node p scores rest))
  have h₁ : s₁.tasks[t]? = some (.update network c (.node p scores rest)) := tasks_goto h _
  have hstep₁ : step s (.statement t) = some s₁ := step_statement h
  let s₂ : State S :=
    { s₁ with db := s₁.db.nodeGetOrCreate p }.goto t (.update network c (.reputation p scores rest))
  have h₂ : s₂.tasks[t]? = some (.update network c (.reputation p scores rest)) := tasks_goto h₁ _
  have hstep₂ : step s₁ (.statement t) = some s₂ := step_statement h₁
  have hstep₃ := step_statement h₂
  let key : Key := ⟨p, network⟩
  let read := (s₂.db.getOrCreate key).2.1
  let created := (s₂.db.getOrCreate key).2.2
  let s₃ : State S := { s₂ with db := (s₂.db.getOrCreate key).1 }
  cases hchanged : (scoreChanges scores read).updated with
  | false =>
      have hbody : updateProvider network p scores s.db = (s₃.db, created, false) :=
        if_neg (ne_true_of_eq_false hchanged)
      have hnext : updateStatement s₂ t network c (.reputation p scores rest) =
          some (s₃.goto t (continueUpdate network (c.close created false) rest)) :=
        congrArg (fun task => some (s₃.goto t task)) (if_neg (ne_true_of_eq_false hchanged))
      rw [hbody]
      refine ⟨3, _, exec_cons_of_step hstep₁ (exec_cons_of_step hstep₂
        (exec_cons_of_step (hstep₃.trans hnext) rfl)), rfl, tasks_goto h₂ _⟩
  | true =>
      let saving : Task S :=
        .update network c (.saving p rest created read (scoreChanges scores read))
      have hbody : updateProvider network p scores s.db =
          (s₃.db.save key (read.assign (scoreChanges scores read)), created, true) :=
        if_pos hchanged
      have hnext : updateStatement s₂ t network c (.reputation p scores rest) =
          some (s₃.goto t saving) :=
        congrArg (fun task => some (s₃.goto t task)) (if_pos hchanged)
      have h₃ : (s₃.goto t saving).tasks[t]? = some saving := tasks_goto h₂ _
      rw [hbody]
      refine ⟨4, _, exec_cons_of_step hstep₁ (exec_cons_of_step hstep₂
        (exec_cons_of_step (hstep₃.trans hnext) (exec_cons_of_step (step_statement h₃) rfl))),
        rfl, tasks_goto h₃ _⟩

/-- **An update task that runs alone computes `update`**: from the answer of the reputation
service on, its own statements lead it to its end. -/
theorem update_alone {s : State S} {t : Nat} {network : String}
    (providers : List (ProviderData S))
    (h : s.tasks[t]? = some (.update network {} .fetching)) :
    ∃ n s', exec step (.fetched t providers :: List.replicate n (.statement t)) s = some s' ∧
      s'.db = (update network providers s.db).1 ∧
      s'.tasks[t]? = some (.update network (update network providers s.db).2 .returned) := by
  have hloop : ∀ (providers : List (ProviderData S)) (s : State S) (c : Counts),
      s.tasks[t]? = some (continueUpdate network c providers) →
      ∃ n s', exec step (List.replicate n (.statement t)) s = some s' ∧
        s'.db = (updateLoop network providers s.db c).1 ∧
        s'.tasks[t]? =
          some (.update network (updateLoop network providers s.db c).2 .returned) := by
    intro providers
    induction providers using providers_induction with
    | nil =>
        intro s c hs
        exact ⟨0, s, rfl, rfl, hs⟩
    | ignored e rest he ih =>
        intro s c hs
        rw [continueUpdate_ignored he] at hs
        rw [updateLoop_ignored he]
        exact ih s _ hs
    | accepted e p scores rest he ih =>
        intro s c hs
        rw [continueUpdate_accepted he] at hs
        rw [updateLoop_accepted he]
        obtain ⟨n, m, hrun, hdb, htask⟩ := entry_alone hs
        obtain ⟨n', s', hrun', hdb', htask'⟩ := ih m _ htask
        rw [hdb] at hdb' htask'
        refine ⟨n + n', s', ?_, hdb', htask'⟩
        rw [List.replicate_add]
        exact exec_append hrun hrun'
  have hfetched : step s (.fetched t providers) =
      some (s.goto t (continueUpdate network {} providers)) := by
    simp [step, h]
  obtain ⟨n, s', hrun, hdb, htask⟩ :=
    hloop providers (s.goto t (continueUpdate network {} providers)) {} (tasks_goto h _)
  exact ⟨n, s', exec_cons_of_step hfetched hrun, hdb, htask⟩

end

end Reputation
