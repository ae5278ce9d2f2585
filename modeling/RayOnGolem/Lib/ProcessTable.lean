import RayOnGolem.Lib.Objects

/-!
# Processes and their numbers

An operating system names its processes by numbers, and gives the number of a process that
is gone to a later one.  A process keeps its number until its parent has waited for it, and
the clock moves on before the number is given away again.  So a number together with a time
at which a process had it says which process is meant.

* `Table.spawn`, `Table.free`, `Table.tick` -- what changes the table;
* `Table.find`, `Table.resolve` -- the process that has a number now, and the one that a
  handle, a number with its time of creation, still names;
* `Table.Wf.same_of_alive` -- two processes that had one number at one time are the same.
-/

namespace ProcessTable

/-- A process: its number, when it was created, what it runs, and when it gave its number
back. -/
structure Entry (ω : Type*) where
  pid : Nat
  created : Nat
  program : ω
  freed : Option Nat := none
  deriving DecidableEq, Repr

/-- The processes in the order of their creation, and the clock. -/
structure Table (ω : Type*) where
  now : Nat := 0
  entries : List (Entry ω) := []
  deriving DecidableEq, Repr

/-- What a program remembers of a process. -/
structure Handle where
  pid : Nat
  created : Nat
  deriving DecidableEq, Repr

variable {ω : Type*}

/-- The process has its number at time `t`. -/
def Entry.Alive (e : Entry ω) (t : Nat) : Prop := e.created ≤ t ∧ ∀ g, e.freed = some g → t ≤ g

/-- The handle names the process. -/
def Entry.Named (e : Entry ω) (h : Handle) : Prop := e.pid = h.pid ∧ e.created = h.created

namespace Table

/-- The clock moves on. -/
def tick (T : Table ω) (d : Nat) : Table ω := { T with now := T.now + d }

/-- A process is created with a number that was given back before. -/
def spawn (T : Table ω) (pid : Nat) (program : ω) : Option (Table ω) :=
  if T.entries.all fun e => e.pid != pid || e.freed.any fun g => g < T.now then
    some { T with entries := T.entries ++ [⟨pid, T.now, program, none⟩] }
  else none

/-- A process gives its number back. -/
def free (T : Table ω) (i : Nat) : Option (Table ω) :=
  match T.entries[i]? with
  | some e =>
      if e.freed = none then
        some { T with entries := T.entries.set i { e with freed := some T.now } }
      else none
  | none => none

/-- The process that has a number. -/
def find (T : Table ω) (pid : Nat) : Option Handle :=
  (T.entries.find? fun e => e.pid = pid && e.freed.isNone).map fun e => ⟨e.pid, e.created⟩

/-- The process that a handle still names. -/
def resolve (T : Table ω) (h : Handle) : Option Nat :=
  T.entries.findIdx? fun e => e.pid = h.pid && (e.created = h.created && e.freed.isNone)

/-- Times are past, and a number is given away only after it was given back. -/
structure Wf (T : Table ω) : Prop where
  created : ∀ (i : Nat) (e : Entry ω), T.entries[i]? = some e → e.created ≤ T.now
  freed : ∀ (i : Nat) (e : Entry ω) (g : Nat), T.entries[i]? = some e → e.freed = some g →
    e.created ≤ g ∧ g ≤ T.now
  apart : ∀ (i j : Nat) (e f : Entry ω), T.entries[i]? = some e → T.entries[j]? = some f →
    i < j → e.pid = f.pid → ∃ g, e.freed = some g ∧ g < f.created

variable {T T' : Table ω} {i j : Nat} {e f : Entry ω}

theorem wf_empty : Wf ({} : Table ω) := by
  constructor <;> simp

theorem Wf.tick (h : T.Wf) (d : Nat) : (T.tick d).Wf :=
  ⟨fun i e he => Nat.le_add_right_of_le (h.created i e he),
    fun i e g he hg => ⟨(h.freed i e g he hg).1, Nat.le_add_right_of_le (h.freed i e g he hg).2⟩,
    h.apart⟩

theorem spawn_cases {pid : Nat} {program : ω} (h : T.spawn pid program = some T') :
    T' = { T with entries := T.entries ++ [⟨pid, T.now, program, none⟩] } ∧
      ∀ (i : Nat) (e : Entry ω), T.entries[i]? = some e → e.pid = pid →
        ∃ g, e.freed = some g ∧ g < T.now := by
  obtain ⟨hall, heq⟩ := Option.ite_none_right_eq_some.mp h
  refine ⟨(Option.some.inj heq).symm, fun i e he hpid => ?_⟩
  have hfree := List.all_eq_true.mp hall e (List.mem_of_getElem? he)
  simpa [hpid, Option.any_eq_true] using hfree

theorem Wf.spawn (h : T.Wf) {pid : Nat} {program : ω} (hspawn : T.spawn pid program = some T') :
    T'.Wf := by
  obtain ⟨rfl, hfree⟩ := spawn_cases hspawn
  refine ⟨?_, ?_, ?_⟩
  · intro i e he
    rcases Objects.append_cases he with he' | ⟨-, rfl⟩
    · exact h.created i e he'
    · exact Nat.le_refl _
  · intro i e g he hg
    rcases Objects.append_cases he with he' | ⟨-, rfl⟩
    · exact h.freed i e g he' hg
    · cases hg
  · intro i j e f he hf hij hpid
    rcases Objects.append_cases hf with hf' | ⟨rfl, rfl⟩
    · have hj : j < T.entries.length := (List.getElem?_eq_some_iff.mp hf').1
      rcases Objects.append_cases he with he' | ⟨rfl, -⟩
      · exact h.apart i j e f he' hf' hij hpid
      · omega
    · rcases Objects.append_cases he with he' | ⟨rfl, -⟩
      · exact hfree i e he' hpid
      · omega

theorem free_cases (h : T.free i = some T') :
    ∃ e, T.entries[i]? = some e ∧ e.freed = none ∧
      T' = { T with entries := T.entries.set i { e with freed := some T.now } } := by
  unfold free at h
  split at h
  · obtain ⟨hfreed, heq⟩ := Option.ite_none_right_eq_some.mp h
    exact ⟨_, ‹_›, hfreed, (Option.some.inj heq).symm⟩
  · cases h

theorem Wf.free (h : T.Wf) (hfree : T.free i = some T') : T'.Wf := by
  obtain ⟨e, he, hfreed, rfl⟩ := free_cases hfree
  refine ⟨?_, ?_, ?_⟩
  · intro k f hf
    rcases Objects.set_cases hf with ⟨-, rfl, -⟩ | ⟨-, hold⟩
    · exact h.created i e he
    · exact h.created k f hold
  · intro k f g hf hg
    rcases Objects.set_cases hf with ⟨-, rfl, -⟩ | ⟨-, hold⟩
    · obtain rfl : T.now = g := Option.some.inj hg
      exact ⟨h.created i e he, Nat.le_refl _⟩
    · exact h.freed k f g hold hg
  · intro k l f g hf hg hkl hpid
    have hlast : ∀ {m : Nat} {u : Entry ω}, T.entries[m]? = some u → i < m → e.pid ≠ u.pid := by
      intro m u hu him heq
      obtain ⟨t, ht, -⟩ := h.apart i m e u he hu him heq
      rw [hfreed] at ht
      cases ht
    rcases Objects.set_cases hf with ⟨rfl, rfl, -⟩ | ⟨hki, hf'⟩
    · rcases Objects.set_cases hg with ⟨rfl, -, -⟩ | ⟨-, hg'⟩
      · omega
      · exact absurd hpid (hlast hg' hkl)
    · rcases Objects.set_cases hg with ⟨rfl, rfl, -⟩ | ⟨-, hg'⟩
      · exact h.apart k l f e hf' he hkl hpid
      · exact h.apart k l f g hf' hg' hkl hpid

/-- **A number and a time name a process.** -/
theorem Wf.same_of_alive (h : T.Wf) (he : T.entries[i]? = some e) (hf : T.entries[j]? = some f)
    (hpid : e.pid = f.pid) {t : Nat} (het : e.Alive t) (hft : f.Alive t) : i = j := by
  rcases Nat.lt_trichotomy i j with hij | rfl | hji
  · obtain ⟨g, hg, hlt⟩ := h.apart i j e f he hf hij hpid
    have := het.2 g hg
    have := hft.1
    omega
  · rfl
  · obtain ⟨g, hg, hlt⟩ := h.apart j i f e hf he hji hpid.symm
    have := hft.2 g hg
    have := het.1
    omega

/-- A handle names one process. -/
theorem Wf.same_of_named (h : T.Wf) (he : T.entries[i]? = some e) (hf : T.entries[j]? = some f)
    {k : Handle} (hek : e.Named k) (hfk : f.Named k) : i = j := by
  have halive : ∀ {m : Nat} {u : Entry ω}, T.entries[m]? = some u → u.Named k →
      u.Alive k.created := by
    intro m u hu huk
    refine ⟨Nat.le_of_eq huk.2, fun g hg => ?_⟩
    rw [← huk.2]
    exact (h.freed m u g hu hg).1
  exact h.same_of_alive he hf (hek.1.trans hfk.1.symm) (halive he hek) (halive hf hfk)

/-- The process that has a number now. -/
theorem find_cases {pid : Nat} {k : Handle} (h : T.find pid = some k) :
    k.pid = pid ∧ ∃ (i : Nat) (e : Entry ω), T.entries[i]? = some e ∧ e.Named k ∧
      e.freed = none := by
  obtain ⟨e, he, rfl⟩ := Option.map_eq_some_iff.mp h
  have hfound := List.find?_some he
  simp only [Bool.and_eq_true, decide_eq_true_eq, Option.isNone_iff_eq_none] at hfound
  obtain ⟨i, hi⟩ := List.getElem?_of_mem (List.mem_of_find?_eq_some he)
  exact ⟨hfound.1, i, e, hi, ⟨rfl, rfl⟩, hfound.2⟩

/-- The process that a handle still names. -/
theorem resolve_cases {k : Handle} (h : T.resolve k = some i) :
    ∃ e, T.entries[i]? = some e ∧ e.Named k ∧ e.freed = none := by
  obtain ⟨hlt, hfound, -⟩ := List.findIdx?_eq_some_iff_getElem.mp h
  simp only [Bool.and_eq_true, decide_eq_true_eq, Option.isNone_iff_eq_none] at hfound
  exact ⟨T.entries[i], List.getElem?_eq_getElem hlt, ⟨hfound.1, hfound.2.1⟩, hfound.2.2⟩

/-! ### Later tables -/

/-- What was known of a process stays true of it. -/
structure Later (T T' : Table ω) : Prop where
  now : T.now ≤ T'.now
  entries : ∀ (i : Nat) (e : Entry ω), T.entries[i]? = some e → ∃ e', T'.entries[i]? = some e' ∧
    e'.pid = e.pid ∧ e'.created = e.created ∧ e'.program = e.program ∧
    ∀ t, t ≤ T.now → e.Alive t → e'.Alive t

theorem Later.refl (T : Table ω) : Later T T :=
  ⟨Nat.le_refl _, fun _ e he => ⟨e, he, rfl, rfl, rfl, fun _ _ h => h⟩⟩

theorem later_tick (T : Table ω) (d : Nat) : Later T (T.tick d) :=
  ⟨Nat.le_add_right _ _, fun _ e he => ⟨e, he, rfl, rfl, rfl, fun _ _ h => h⟩⟩

theorem later_spawn {pid : Nat} {program : ω} (h : T.spawn pid program = some T') :
    Later T T' := by
  obtain ⟨rfl, -⟩ := spawn_cases h
  exact ⟨Nat.le_refl _, fun _ e he => ⟨e, Objects.append_old he, rfl, rfl, rfl, fun _ _ h => h⟩⟩

theorem later_free (h : T.free i = some T') : Later T T' := by
  obtain ⟨e, he, hfreed, rfl⟩ := free_cases h
  refine ⟨Nat.le_refl _, fun k f hf => ?_⟩
  by_cases hki : k = i
  · subst hki
    obtain rfl : e = f := Option.some.inj (he.symm.trans hf)
    refine ⟨_, Objects.set_self he, rfl, rfl, rfl, fun t ht halive => ⟨halive.1, fun g hg => ?_⟩⟩
    obtain rfl : T.now = g := Option.some.inj hg
    exact ht
  · exact ⟨f, Objects.set_old hki hf, rfl, rfl, rfl, fun _ _ h => h⟩

/-- A process with a number goes on having it at all times from its creation on. -/
theorem alive_of_not_freed {t : Nat} (hcreated : e.created ≤ t) (hfreed : e.freed = none) :
    e.Alive t :=
  ⟨hcreated, fun g hg => by simp [hfreed] at hg⟩

end Table

end ProcessTable
