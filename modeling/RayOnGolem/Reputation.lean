import Mathlib.Data.List.Basic
import Mathlib.Data.Rat.Defs
import RayOnGolem.Lib.Dict
import RayOnGolem.Lib.GuardedRun

/-!
# Reputation records and their writers

Three kinds of tasks write the table of `NodeReputation` records: the
background `ReputationUpdater.update` of every network, and the `block` and
`unblock` commands, each in its own process.  All of them read a whole record,
change some of its columns in memory, and `save()` the whole record back.

A task is its position between two database statements.  A statement (`get`,
`get_or_create`, `save`) is one atomic step; which task goes next is free, and
any task may end early by an exception or a cancellation (`abort`).  The state
also keeps the log of what the tasks assigned, so that the record the table
should hold (`lastWritten`) can be compared with the one it holds (`Db.row`).

Main results:

* `no_write_lost` -- in every run whose saves find the columns they do not
  assign unchanged, every record is the one last written, column by column;
* `save_lossless_iff` -- a save that finds a changed column loses a write;
* `writes_lost` -- such saves happen: a `block` between the read and the save
  of an update is undone by the update.
-/

namespace Reputation

open Runs

/-- `BLACKLISTED_NEVER`, in seconds since the epoch. -/
def blacklistedNever : Int := 0

/-- `BLACKLISTED_FOREVER`, 2 to the power 32, in seconds since the epoch. -/
def blacklistedForever : Int := 4294967296

/-- The columns of a `NodeReputation` record besides its keys, with their
defaults.  Scores are only compared and stored. -/
structure NodeReputation (S : Type*) where
  successRate : Option S := none
  uptime : Option S := none
  blacklistedUntil : Int := blacklistedNever
  deriving DecidableEq, Repr

/-- The unique key of a record: `node__node_id` and `network__network_name`. -/
structure Key where
  node : String
  network : String
  deriving DecidableEq, Repr

/-- The columns a task assigns before it saves; `none` is not assigned. -/
structure Changes (S : Type*) where
  successRate : Option S := none
  uptime : Option S := none
  blacklistedUntil : Option Int := none
  deriving DecidableEq, Repr

variable {S : Type*}

/-- Assign columns of an in-memory record. -/
def NodeReputation.assign (r : NodeReputation S) (c : Changes S) : NodeReputation S where
  successRate := c.successRate.or r.successRate
  uptime := c.uptime.or r.uptime
  blacklistedUntil := c.blacklistedUntil.getD r.blacklistedUntil

/-- The tables, by their unique columns. -/
structure Db (S : Type*) where
  networks : List String := []
  nodes : List String := []
  reputations : Key → Option (NodeReputation S) := fun _ => none

/-- `Network.get_or_create(network_name=...)`. -/
def Db.networkGetOrCreate (db : Db S) (network : String) : Db S :=
  { db with networks := db.networks.insert network }

/-- `Node.get_or_create(node_id=...)`. -/
def Db.nodeGetOrCreate (db : Db S) (node : String) : Db S :=
  { db with nodes := db.nodes.insert node }

/-- `NodeReputation.get_or_create(...)`: the record and whether it was created. -/
def Db.getOrCreate (db : Db S) (k : Key) : Db S × NodeReputation S × Bool :=
  match db.reputations k with
  | some r => (db, r, false)
  | none => ({ db with reputations := Function.update db.reputations k (some {}) }, {}, true)

/-- `node_reputation.save()`: every column is written. -/
def Db.save (db : Db S) (k : Key) (r : NodeReputation S) : Db S :=
  { db with reputations := Function.update db.reputations k (some r) }

/-- The record under a key; a missing one reads as the defaults. -/
def Db.row (db : Db S) (k : Key) : NodeReputation S := (db.reputations k).getD {}

/-- `get_or_create` changes no record: a missing one reads as the defaults it
is created with. -/
theorem row_getOrCreate (db : Db S) (k : Key) : (db.getOrCreate k).1.row = db.row := by
  funext k'
  unfold Db.getOrCreate
  cases h : db.reputations k with
  | some r => rfl
  | none =>
      by_cases hk : k' = k
      · subst hk
        simp [Db.row, h]
      · simp [Db.row, hk]

theorem row_save_self (db : Db S) (k : Key) (r : NodeReputation S) : (db.save k r).row k = r := by
  simp [Db.row, Db.save]

theorem row_save_ne (db : Db S) {k k' : Key} (h : k' ≠ k) (r : NodeReputation S) :
    (db.save k r).row k' = db.row k' := by
  simp [Db.row, Db.save, h]

/-- One element of `data.get("providers")`. -/
structure ProviderData (S : Type*) where
  providerId : Option String
  scores : Option (Dict String (Option S))

/-- What `update` returns. -/
structure Counts where
  added : Nat := 0
  updated : Nat := 0
  ignored : Nat := 0
  total : Nat := 0
  deriving DecidableEq, Repr

/-- Where an `update` stands: before the statement it names. -/
inductive UpdatePc (S : Type*)
  | fetching
  | network (providerId : String) (scores : Dict String (Option S)) (rest : List (ProviderData S))
  | node (providerId : String) (scores : Dict String (Option S)) (rest : List (ProviderData S))
  | reputation (providerId : String) (scores : Dict String (Option S))
      (rest : List (ProviderData S))
  | saving (providerId : String) (rest : List (ProviderData S)) (created : Bool)
      (read : NodeReputation S) (changes : Changes S)
  | returned

/-- Where a `block` stands. -/
inductive BlockPc (S : Type*)
  | node
  | network
  | reputation
  | saving (read : NodeReputation S)

/-- Where an `unblock` stands. -/
inductive UnblockPc (S : Type*)
  | reputation
  | saving (read : NodeReputation S)

/-- A task: an `update` of a network, a command on a record, or one that ended. -/
inductive Task (S : Type*)
  | update (network : String) (counts : Counts) (pc : UpdatePc S)
  | block (key : Key) (pc : BlockPc S)
  | unblock (key : Key) (pc : UnblockPc S)
  | ended

/-- The `for pdata in providers` loop up to the next database statement. -/
def nextProvider (c : Counts) : List (ProviderData S) → Counts × UpdatePc S
  | [] => (c, .returned)
  | p :: rest =>
      match p.providerId, p.scores with
      | some providerId, some scores =>
          if providerId ≠ "" ∧ scores.items ≠ [] then
            ({ c with total := c.total + 1 }, .network providerId scores rest)
          else nextProvider { c with total := c.total + 1, ignored := c.ignored + 1 } rest
      | _, _ => nextProvider { c with total := c.total + 1, ignored := c.ignored + 1 } rest

/-- `if value is not None and current != value: record.column = value`. -/
def assignedScore [DecidableEq S] (current value : Option S) : Option S :=
  if current = value then none else value

/-- The columns that `update` assigns to a record it read. -/
def scoreChanges [DecidableEq S] (scores : Dict String (Option S)) (r : NodeReputation S) :
    Changes S where
  successRate := assignedScore r.successRate (scores.get "successRate").join
  uptime := assignedScore r.uptime (scores.get "uptime").join

/-- The local `updated` of `update`. -/
def Changes.updated (c : Changes S) : Bool := c.successRate.isSome || c.uptime.isSome

/-- The `cnt_added` and `cnt_updated` bookkeeping at the end of an iteration. -/
def Counts.close (c : Counts) (created updated : Bool) : Counts :=
  if created then { c with added := c.added + 1 }
  else if updated then { c with updated := c.updated + 1 } else c

/-- The column a `block` assigns. -/
def blockChanges : Changes S := { blacklistedUntil := some blacklistedForever }

/-- The column an `unblock` assigns. -/
def unblockChanges : Changes S := { blacklistedUntil := some blacklistedNever }

/-- The tables, the tasks by number, and the assignments saved so far, newest
first. -/
structure State (S : Type*) where
  db : Db S := {}
  tasks : List (Task S) := []
  log : List (Key × Changes S) := []

/-- Task `t` goes on as `task`. -/
def State.goto (s : State S) (t : Nat) (task : Task S) : State S :=
  { s with tasks := s.tasks.set t task }

/-- The statement `save()` of task `t`. -/
def State.save (s : State S) (t : Nat) (k : Key) (read : NodeReputation S) (c : Changes S)
    (task : Task S) : State S :=
  { db := s.db.save k (read.assign c), tasks := s.tasks.set t task, log := (k, c) :: s.log }

/-- The next loop iteration of an update, after the counts were closed. -/
def continueUpdate (network : String) (c : Counts) (rest : List (ProviderData S)) : Task S :=
  let (c, pc) := nextProvider c rest
  .update network c pc

/-- One statement of an `update`. -/
def updateStatement [DecidableEq S] (s : State S) (t : Nat) (network : String) (c : Counts) :
    UpdatePc S → Option (State S)
  | .network p scores rest =>
      some ({ s with db := s.db.networkGetOrCreate network }.goto t
        (.update network c (.node p scores rest)))
  | .node p scores rest =>
      some ({ s with db := s.db.nodeGetOrCreate p }.goto t
        (.update network c (.reputation p scores rest)))
  | .reputation p scores rest =>
      let (db, r, created) := s.db.getOrCreate ⟨p, network⟩
      let changes := scoreChanges scores r
      some ({ s with db }.goto t
        (if changes.updated then .update network c (.saving p rest created r changes)
        else continueUpdate network (c.close created false) rest))
  | .saving p rest created read changes =>
      some (s.save t ⟨p, network⟩ read changes (continueUpdate network (c.close created true) rest))
  | .fetching | .returned => none

/-- One statement of a `block`. -/
def blockStatement (s : State S) (t : Nat) (k : Key) : BlockPc S → State S
  | .node => { s with db := s.db.nodeGetOrCreate k.node }.goto t (.block k .network)
  | .network => { s with db := s.db.networkGetOrCreate k.network }.goto t (.block k .reputation)
  | .reputation =>
      let (db, r, _) := s.db.getOrCreate k
      { s with db }.goto t (.block k (.saving r))
  | .saving read => s.save t k read blockChanges .ended

/-- One statement of an `unblock`; without a record it only prints. -/
def unblockStatement (s : State S) (t : Nat) (k : Key) : UnblockPc S → State S
  | .reputation =>
      match s.db.reputations k with
      | some r => s.goto t (.unblock k (.saving r))
      | none => s.goto t .ended
  | .saving read => s.save t k read unblockChanges .ended

/-- The columns of a record as last assigned by a save, or their defaults. -/
def lastWritten (log : List (Key × Changes S)) (k : Key) : NodeReputation S where
  successRate := (log.filter (·.1 = k)).findSome? (·.2.successRate)
  uptime := (log.filter (·.1 = k)).findSome? (·.2.uptime)
  blacklistedUntil :=
    ((log.filter (·.1 = k)).findSome? (·.2.blacklistedUntil)).getD blacklistedNever

theorem lastWritten_cons_self (log : List (Key × Changes S)) (k : Key) (c : Changes S) :
    lastWritten ((k, c) :: log) k = (lastWritten log k).assign c := by
  obtain ⟨sr, up, bl⟩ := c
  cases sr <;> cases up <;> cases bl <;> simp [lastWritten, NodeReputation.assign]

theorem lastWritten_cons_ne (log : List (Key × Changes S)) {k k' : Key} (h : k' ≠ k)
    (c : Changes S) : lastWritten ((k', c) :: log) k = lastWritten log k := by
  simp [lastWritten, h]

/-- The columns that a save writes back without having assigned them are still
those of the row. -/
structure Current (row read : NodeReputation S) (c : Changes S) : Prop where
  successRate : c.successRate = none → read.successRate = row.successRate
  uptime : c.uptime = none → read.uptime = row.uptime
  blacklistedUntil : c.blacklistedUntil = none → read.blacklistedUntil = row.blacklistedUntil

theorem current_iff (row read : NodeReputation S) (c : Changes S) :
    Current row read c ↔ read.assign c = row.assign c := by
  obtain ⟨sr, up, bl⟩ := c
  constructor
  · rintro ⟨h₁, h₂, h₃⟩
    cases sr <;> cases up <;> cases bl <;> simp_all [NodeReputation.assign]
  · intro h
    cases sr <;> cases up <;> cases bl <;>
      simp only [NodeReputation.assign, NodeReputation.mk.injEq] at h <;>
      constructor <;> simp_all

instance [DecidableEq S] (row read : NodeReputation S) (c : Changes S) :
    Decidable (Current row read c) :=
  decidable_of_iff _ (current_iff row read c).symm

/-- What can happen next: a task is started, an update gets its data, a task
runs its next statement, a task is ended by an exception or a cancellation. -/
inductive Act (S : Type*)
  | update (network : String)
  | block (key : Key)
  | unblock (key : Key)
  | fetched (t : Nat) (providers : List (ProviderData S))
  | statement (t : Nat)
  | abort (t : Nat)

variable [DecidableEq S]

/-- One step of all writers together. -/
def step (s : State S) : Act S → Option (State S)
  | .update network => some { s with tasks := s.tasks ++ [.update network {} .fetching] }
  | .block k => some { s with tasks := s.tasks ++ [.block k .node] }
  | .unblock k => some { s with tasks := s.tasks ++ [.unblock k .reputation] }
  | .fetched t providers =>
      match s.tasks[t]? with
      | some (.update network c .fetching) => some (s.goto t (continueUpdate network c providers))
      | _ => none
  | .statement t =>
      match s.tasks[t]? with
      | some (.update network c pc) => updateStatement s t network c pc
      | some (.block k pc) => some (blockStatement s t k pc)
      | some (.unblock k pc) => some (unblockStatement s t k pc)
      | _ => none
  | .abort t => if t < s.tasks.length then some (s.goto t .ended) else none

/-- Empty tables and no tasks. -/
def Initial (s : State S) : Prop := s = {}

/-! ### What one step writes -/

/-- The record a task is about to save: its key, as it was read, and what was
assigned to it since. -/
def Task.pendingSave : Task S → Option (Key × NodeReputation S × Changes S)
  | .update network _ (.saving p _ _ read c) => some (⟨p, network⟩, read, c)
  | .block k (.saving read) => some (k, read, blockChanges)
  | .unblock k (.saving read) => some (k, read, unblockChanges)
  | _ => none

/-- **The condition.**  A `save` runs only while every column it did not
assign still has in the table the value that the task read. -/
def savesCurrent (s : State S) : Act S → Bool
  | .statement t =>
      match (s.tasks[t]?).bind Task.pendingSave with
      | some (k, read, c) => decide (Current (s.db.row k) read c)
      | none => true
  | _ => true

/-- The tables' records and the log are as before. -/
def Untouched (s s' : State S) : Prop := s'.db.row = s.db.row ∧ s'.log = s.log

/-- Task `t` is about to save `read.assign c` under `k`, and `s'` is `s` after
that statement. -/
structure Saved (s s' : State S) (t : Nat) (k : Key) (read : NodeReputation S) (c : Changes S) :
    Prop where
  pending : (s.tasks[t]?).bind Task.pendingSave = some (k, read, c)
  db : s'.db = s.db.save k (read.assign c)
  log : s'.log = (k, c) :: s.log

/-- **What a step can do to the records.**  It either leaves all of them, or it
is the `save` statement of a task. -/
theorem step_cases {s s' : State S} {a : Act S} (h : step s a = some s') :
    Untouched s s' ∨ ∃ t k read c, a = .statement t ∧ Saved s s' t k read c := by
  cases a with
  | update network => cases h; exact .inl ⟨rfl, rfl⟩
  | block k => cases h; exact .inl ⟨rfl, rfl⟩
  | unblock k => cases h; exact .inl ⟨rfl, rfl⟩
  | fetched t providers =>
      simp only [step] at h
      split at h
      · cases h; exact .inl ⟨rfl, rfl⟩
      · cases h
  | abort t =>
      simp only [step] at h
      split at h
      · cases h; exact .inl ⟨rfl, rfl⟩
      · cases h
  | statement t =>
      simp only [step] at h
      split at h
      · rename_i network c pc ht
        cases pc with
        | fetching => cases h
        | returned => cases h
        | network p scores rest => cases h; exact .inl ⟨rfl, rfl⟩
        | node p scores rest => cases h; exact .inl ⟨rfl, rfl⟩
        | reputation p scores rest =>
            cases h
            exact .inl ⟨row_getOrCreate s.db ⟨p, network⟩, rfl⟩
        | saving p rest created read changes =>
            cases h
            exact .inr ⟨t, _, read, changes, rfl, ⟨by simp [ht, Task.pendingSave], rfl, rfl⟩⟩
      · rename_i k pc ht
        cases h
        cases pc with
        | node => exact .inl ⟨rfl, rfl⟩
        | network => exact .inl ⟨rfl, rfl⟩
        | reputation => exact .inl ⟨row_getOrCreate s.db k, rfl⟩
        | saving read =>
            exact .inr ⟨t, k, read, blockChanges, rfl, ⟨by simp [ht, Task.pendingSave], rfl, rfl⟩⟩
      · rename_i k pc ht
        cases h
        cases pc with
        | reputation =>
            simp only [unblockStatement]
            split <;> exact .inl ⟨rfl, rfl⟩
        | saving read =>
            exact .inr ⟨t, k, read, unblockChanges, rfl,
              ⟨by simp [ht, Task.pendingSave], rfl, rfl⟩⟩
      · cases h

/-- The claimed property: every record is the one last written. -/
def Lossless (s : State S) : Prop := ∀ k, s.db.row k = lastWritten s.log k

omit [DecidableEq S] in
/-- **What a save loses.**  Where nothing was lost before it, a save loses
nothing exactly when the columns it does not assign are current. -/
theorem save_lossless_iff {s s' : State S} {t : Nat} {k : Key} {read : NodeReputation S}
    {c : Changes S} (hs : Lossless s) (h : Saved s s' t k read c) :
    Lossless s' ↔ Current (s.db.row k) read c := by
  have hk : s'.db.row k = lastWritten s'.log k ↔ read.assign c = (s.db.row k).assign c := by
    rw [h.db, h.log, row_save_self, lastWritten_cons_self, hs k]
  rw [current_iff]
  constructor
  · intro hl
    exact hk.mp (hl k)
  · intro hc k'
    by_cases hne : k' = k
    · subst hne
      exact hk.mpr hc
    · rw [h.db, h.log, row_save_ne _ hne, lastWritten_cons_ne _ (Ne.symm hne), hs k']

/-- One step that meets the condition loses nothing. -/
theorem Lossless.step {s s' : State S} {a : Act S} (hs : Lossless s)
    (hok : savesCurrent s a = true) (h : step s a = some s') : Lossless s' := by
  rcases step_cases h with ⟨hrow, hlog⟩ | ⟨t, k, read, c, rfl, hsaved⟩
  · intro k
    rw [hrow, hlog, hs k]
  · apply (save_lossless_iff hs hsaved).mpr
    simpa [savesCurrent, hsaved.pending] using hok

/-- **No write is lost** in any run whose saves all find the columns that they
do not assign unchanged, whatever the payloads, the networks, the number of
tasks and the order of their statements. -/
theorem no_write_lost {s : State S} (h : Reach Initial step (fun s a => savesCurrent s a) s)
    (k : Key) : s.db.row k = lastWritten s.log k := by
  refine Reach.invariant (I := Lossless) ?_ (fun _ _ _ hs hok hstep => hs.step hok hstep) h k
  rintro s rfl k
  rfl

/-- The provider and the payload of the two runs below. -/
def exampleProviders : List (ProviderData ℚ) :=
  [⟨some "0xa", some ⟨[("successRate", some 1), ("uptime", none)]⟩⟩]

/-- An update runs to its end, then a block; then a second update reads the
blocked record, and finds its scores unchanged. -/
def orderedRun : List (Act ℚ) :=
  [.update "holesky", .fetched 0 exampleProviders, .statement 0, .statement 0, .statement 0,
    .statement 0, .block ⟨"0xa", "holesky"⟩, .statement 1, .statement 1, .statement 1,
    .statement 1, .update "holesky", .fetched 2 exampleProviders, .statement 2, .statement 2,
    .statement 2]

theorem no_write_lost_ordered :
    ∃ s, exec (guarded step savesCurrent) orderedRun {} = some s ∧
      s.db.row ⟨"0xa", "holesky"⟩ = ⟨some 1, none, blacklistedForever⟩ ∧
      s.db.row ⟨"0xa", "holesky"⟩ = lastWritten s.log ⟨"0xa", "holesky"⟩ := by
  refine ⟨_, rfl, rfl, ?_⟩
  exact no_write_lost (Reach.execGuarded orderedRun (.start rfl) rfl) _

/-- An update reads the record of a provider, the provider is blocked, and the
update saves the record as it read it, with the new score. -/
def overlappingRun : List (Act ℚ) :=
  [.update "holesky", .fetched 0 exampleProviders, .statement 0, .statement 0, .statement 0,
    .block ⟨"0xa", "holesky"⟩, .statement 1, .statement 1, .statement 1, .statement 1,
    .statement 0]

/-- Every task has returned. -/
def Task.finished : Task S → Bool
  | .ended | .update _ _ .returned => true
  | _ => false

/-- **A block is silently undone**: not every run keeps what was last written,
even after all its tasks finished. -/
theorem writes_lost :
    ¬ ∀ s : State ℚ, Reachable Initial step s → s.tasks.all Task.finished = true → Lossless s := by
  intro hall
  have hrun : ∃ s, exec step overlappingRun {} = some s ∧ s.tasks.all Task.finished = true ∧
      (s.db.row ⟨"0xa", "holesky"⟩).blacklistedUntil = blacklistedNever ∧
      (lastWritten s.log ⟨"0xa", "holesky"⟩).blacklistedUntil = blacklistedForever :=
    ⟨_, rfl, rfl, rfl, rfl⟩
  obtain ⟨s, hs, hfin, hrow, hlast⟩ := hrun
  have hloss := hall s (Reach.exec overlappingRun (.start rfl) hs) hfin ⟨"0xa", "holesky"⟩
  rw [hloss, hlast] at hrow
  exact absurd hrow (by decide)

end Reputation
