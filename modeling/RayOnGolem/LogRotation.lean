import Mathlib.Logic.Function.Basic
import Mathlib.Order.Nat
import RayOnGolem.Lib.GuardedRun

/-!
# Log files

`ZippingRotatingFileHandler` with the `doRollover` of the handler that it extends: a log that is
not empty when a handler opens it becomes the first of up to 99 compressed backups, after each
of these was renamed to the next number.  A log is the list of its lines.

A step is one operation on the files, and the process may end before any of them, so a rollover
may be interrupted anywhere and a later handler begins another one on what it finds.  No two
handlers have the log open: `ray-on-golem network-stats --enable-logging` is not run beside a
web server of the same data directory.

Main results:

* `logs_survive` -- whatever is interrupted, a line that was logged is in the log or in a whole
  backup after up to 99 later starts of a handler;
* `backups_in_order` -- where no rollover is interrupted, the backups are the last logs, in order.
-/

/-- The lines of a log. -/
abbrev Log := List String

/-- A backup: `gzip` wrote all of the log, or was interrupted. -/
inductive Backup
  | whole (log : Log)
  | torn
  deriving DecidableEq, Repr

/-- `LOGGING_BACKUP_COUNT`. -/
def loggingBackupCount : Nat := 99

/-- Where a handler stands; at `shifting i` the numbers from `i` down to one are still to be
renamed, and at `renaming i` the file with number `i + 2` was removed for the one with `i + 1`. -/
inductive LogPc
  | closed
  | logging
  | shifting (i : Nat)
  | renaming (i : Nat)
  | clearing
  | zipping
  | zipped
  | opening
  deriving DecidableEq, Repr

/-- The files, by the numbers of the backups, and the handler.  `starts` counts the handlers
and `sessions` has the logs that they began to roll over, the last one first. -/
structure LogFiles where
  base : Option Log := none
  backups : Nat → Option Backup := fun _ => none
  pc : LogPc := .closed
  starts : Nat := 0
  sessions : List Log := []

namespace LogFiles

open Runs

/-- A backup is created, replaced or removed. -/
def setBackup (s : LogFiles) (i : Nat) (b : Option Backup) : LogFiles :=
  { s with backups := Function.update s.backups i b }

/-- `__init__` opens the log and looks at its length. -/
def start (s : LogFiles) : Option LogFiles :=
  if s.pc = .closed then
    match s.base with
    | none | some [] => some { s with base := some [], pc := .logging, starts := s.starts + 1 }
    | some (line :: lines) =>
        some { s with
          pc := .shifting (loggingBackupCount - 1)
          starts := s.starts + 1
          sessions := (line :: lines) :: s.sessions }
  else none

/-- The file with number `i + 1` gets the next number. -/
def rename (s : LogFiles) (i : Nat) : LogFiles :=
  { (s.setBackup (i + 2) (s.backups (i + 1))).setBackup (i + 1) none with pc := .shifting i }

/-- `rotator` creates the compressed file, if there is a log. -/
def zip (s : LogFiles) : LogFiles :=
  match s.base with
  | some _ => { s.setBackup 1 (some .torn) with pc := .zipping }
  | none => { s with pc := .opening }

/-- The next operation of `doRollover`. -/
def proceed (s : LogFiles) : Option LogFiles :=
  match s.pc with
  | .shifting (i + 1) =>
      if s.backups (i + 1) = none then some { s with pc := .shifting i }
      else if s.backups (i + 2) = none then some (s.rename i)
      else some { s.setBackup (i + 2) none with pc := .renaming i }
  | .renaming i => some (s.rename i)
  | .shifting 0 =>
      if s.backups 1 = none then some s.zip else some { s.setBackup 1 none with pc := .clearing }
  | .clearing => some s.zip
  | .zipping =>
      some { s.setBackup 1 (s.base.map Backup.whole) with pc := .zipped }
  | .zipped => some { s with base := none, pc := .opening }
  | .opening => some { s with base := some [], pc := .logging }
  | .closed | .logging => none

/-- A line is written. -/
def log (s : LogFiles) (line : String) : Option LogFiles :=
  if s.pc = .logging then some { s with base := s.base.map (· ++ [line]) } else none

/-- What can happen; `ends` is the end of the process, whatever it was doing. -/
inductive Act
  | start
  | proceed
  | log (line : String)
  | ends
  deriving DecidableEq, Repr

/-- One step. -/
def step (s : LogFiles) : Act → Option LogFiles
  | .start => s.start
  | .proceed => s.proceed
  | .log line => s.log line
  | .ends => if s.pc = .closed then none else some { s with pc := .closed }

@[simp] theorem setBackup_self (s : LogFiles) (i : Nat) (b : Option Backup) :
    (s.setBackup i b).backups i = b := by
  simp [setBackup]

theorem setBackup_ne (s : LogFiles) {i k : Nat} (b : Option Backup) (h : k ≠ i) :
    (s.setBackup i b).backups k = s.backups k := by
  simp [setBackup, h]

/-- What a rename does to the file it is about. -/
theorem rename_next (s : LogFiles) (i : Nat) :
    (s.rename i).backups (i + 2) = s.backups (i + 1) := by
  simp [rename, setBackup]

/-- A rename leaves all other numbers alone. -/
theorem rename_ne (s : LogFiles) {i k : Nat} (h₁ : k ≠ i + 1) (h₂ : k ≠ i + 2) :
    (s.rename i).backups k = s.backups k := by
  simp [rename, setBackup, h₁, h₂]

/-! ### No line is lost -/

variable {s s' : LogFiles} {a : Act} {c : Log} {m : Nat}

/-- A rollover is under way. -/
def LogPc.rolls : LogPc → Bool
  | .closed | .logging => false
  | _ => true

/-- Where backup `i` stands that came no earlier than in the first start after `m` starts. -/
def Placed (m starts i : Nat) : LogPc → Prop
  | .closed | .logging | .zipped | .opening => i + m ≤ starts
  | .shifting j => (i ≤ j ∧ i + m < starts) ∨ (j + 2 ≤ i ∧ i + m ≤ starts)
  | .renaming j => (i ≤ j + 1 ∧ i + m < starts) ∨ (j + 3 ≤ i ∧ i + m ≤ starts)
  | .clearing | .zipping => 2 ≤ i ∧ i + m ≤ starts

/-- The log that begins with `c` is there. -/
inductive Kept (c : Log) (m : Nat) (s : LogFiles) : Prop
  | inBase (d : Log) (hbegins : c <+: d) (hbase : s.base = some d) (hm : m ≤ s.starts)
      (hrolls : LogPc.rolls s.pc = true → m < s.starts)
      (hcopy : s.pc = .zipped → s.backups 1 = some (.whole d)) (hopening : s.pc ≠ .opening)
  | inBackup (d : Log) (i : Nat) (hbegins : c <+: d) (hi : 1 ≤ i)
      (hbackup : s.backups i = some (.whole d)) (hplaced : Placed m s.starts i s.pc)

theorem Placed.le {starts i : Nat} {pc : LogPc} (h : Placed m starts i pc) : i + m ≤ starts := by
  cases pc <;> simp only [Placed] at h <;> omega

theorem Kept.start (h : Kept c m s) (hne : c ≠ []) (hfew : s'.starts ≤ m + loggingBackupCount)
    (hstep : s.start = some s') : Kept c m s' := by
  obtain ⟨hpc, heq⟩ := Option.ite_none_right_eq_some.mp hstep
  have hempty : ∀ d, c <+: d → d ≠ [] := by
    intro d hbegins hd
    exact hne (List.prefix_nil.mp (hd ▸ hbegins))
  split at heq <;> obtain rfl := Option.some.inj heq
  case h_1 hbase =>
    cases h with
    | inBase d hbegins hd => simp [hbase] at hd
    | inBackup d i hbegins hi hbackup hplaced =>
        exact .inBackup d i hbegins hi hbackup (Nat.le_succ_of_le hplaced.le)
  case h_2 hbase =>
    cases h with
    | inBase d hbegins hd => exact absurd (Option.some.inj (hd.symm.trans hbase)) (hempty d hbegins)
    | inBackup d i hbegins hi hbackup hplaced =>
        exact .inBackup d i hbegins hi hbackup (Nat.le_succ_of_le hplaced.le)
  case h_3 =>
    cases h with
    | inBase d hbegins hd hm =>
        have hlt : m < s.starts + 1 := Nat.lt_succ_of_le hm
        exact .inBase d hbegins hd hlt.le (fun _ => hlt) nofun nofun
    | inBackup d i hbegins hi hbackup hplaced =>
        refine .inBackup d i hbegins hi hbackup (.inl ⟨?_, Nat.lt_succ_of_le hplaced.le⟩)
        have hle := hplaced.le
        simp only [loggingBackupCount] at *
        omega

/-- A rename keeps what is there. -/
theorem Kept.rename (h : Kept c m s) {j : Nat} (hrolls : LogPc.rolls s.pc = true)
    (hplaced : ∀ i, Placed m s.starts i s.pc → (∃ d, s.backups i = some (.whole d)) →
      (i ≤ j + 1 ∧ i + m < s.starts) ∨ (j + 3 ≤ i ∧ i + m ≤ s.starts)) :
    Kept c m (s.rename j) := by
  cases h with
  | inBase d hbegins hbase hm hlt =>
      exact .inBase d hbegins hbase hm (fun _ => hlt hrolls) nofun nofun
  | inBackup d i hbegins hi hbackup hplace =>
      by_cases hmoved : i = j + 1
      · subst hmoved
        have hbackup : (s.rename j).backups (j + 2) = some (.whole d) := by
          rw [rename_next, hbackup]
        refine .inBackup d (j + 2) hbegins (by omega) hbackup (.inr ⟨by omega, ?_⟩)
        have := hplaced _ hplace ⟨d, by assumption⟩
        show j + 2 + m ≤ s.starts
        omega
      · have hcases := hplaced i hplace ⟨d, hbackup⟩
        refine .inBackup d i hbegins hi ?_ ?_
        · rw [rename_ne s hmoved (by omega), hbackup]
        · show (i ≤ j ∧ i + m < s.starts) ∨ (j + 2 ≤ i ∧ i + m ≤ s.starts)
          omega

/-- A backup at another number is written or removed. -/
theorem Kept.setBackup (h : Kept c m s) {k : Nat} {b : Option Backup} {pc : LogPc}
    (hrolls : LogPc.rolls s.pc = true) (hpc : pc ≠ .zipped ∧ pc ≠ .opening)
    (hplaced : ∀ i, 1 ≤ i → Placed m s.starts i s.pc → (∃ d, s.backups i = some (.whole d)) →
      i ≠ k ∧ Placed m s.starts i pc) :
    Kept c m { s.setBackup k b with pc := pc } := by
  cases h with
  | inBase d hbegins hbase hm hlt =>
      exact .inBase d hbegins hbase hm (fun _ => hlt hrolls) (fun hz => absurd hz hpc.1) hpc.2
  | inBackup d i hbegins hi hbackup hplace =>
      obtain ⟨hne, hplaced⟩ := hplaced i hi hplace ⟨d, hbackup⟩
      exact .inBackup d i hbegins hi (by rw [setBackup_ne s b hne, hbackup]) hplaced

/-- The handler goes on without touching a file. -/
theorem Kept.next (h : Kept c m s) {pc : LogPc} (hrolls : LogPc.rolls s.pc = true)
    (hpc : pc ≠ .zipped) (hopening : pc = .opening → s.base = none)
    (hplaced : ∀ i, 1 ≤ i → Placed m s.starts i s.pc → (∃ d, s.backups i = some (.whole d)) →
      Placed m s.starts i pc) : Kept c m { s with pc := pc } := by
  cases h with
  | inBase d hbegins hbase hm hlt =>
      refine .inBase d hbegins hbase hm (fun _ => hlt hrolls) (fun hz => absurd hz hpc) fun ho => ?_
      simp [hopening ho] at hbase
  | inBackup d i hbegins hi hbackup hplace =>
      exact .inBackup d i hbegins hi hbackup (hplaced i hi hplace ⟨d, hbackup⟩)

theorem Kept.zip (h : Kept c m s) (hrolls : LogPc.rolls s.pc = true)
    (hplaced : ∀ i, 1 ≤ i → Placed m s.starts i s.pc → 2 ≤ i ∧ i + m ≤ s.starts) :
    Kept c m s.zip := by
  unfold LogFiles.zip
  split
  · refine h.setBackup hrolls (by simp) fun i hi hplace _ => ?_
    have htwo := hplaced i hi hplace
    exact ⟨by omega, htwo⟩
  · exact h.next hrolls (by simp) (fun _ => ‹_›) fun i _ hplace _ => hplace.le

theorem Kept.proceed (h : Kept c m s) (hstep : s.proceed = some s') : Kept c m s' := by
  unfold LogFiles.proceed at hstep
  split at hstep
  case h_1 j hpc =>
    have hrolls : LogPc.rolls s.pc = true := by rw [hpc]; rfl
    split at hstep
    case isTrue hnone =>
      obtain rfl := Option.some.inj hstep
      refine h.next hrolls (by simp) nofun fun i _ hplace hd => ?_
      obtain ⟨d, hd⟩ := hd
      have hne : i ≠ j + 1 := by
        rintro rfl
        simp [hnone] at hd
      rw [hpc] at hplace
      simp only [Placed] at hplace ⊢
      omega
    case isFalse =>
      split at hstep <;> obtain rfl := Option.some.inj hstep
      · refine h.rename hrolls fun i hplace _ => ?_
        rw [hpc] at hplace
        exact hplace
      · refine h.setBackup hrolls (by simp) fun i _ hplace _ => ?_
        rw [hpc] at hplace
        simp only [Placed] at hplace ⊢
        omega
  case h_2 j hpc =>
    obtain rfl := Option.some.inj hstep
    refine h.rename (by rw [hpc]; rfl) fun i hplace _ => ?_
    rw [hpc] at hplace
    exact hplace
  case h_3 hpc =>
    have hrolls : LogPc.rolls s.pc = true := by rw [hpc]; rfl
    have htwo : ∀ i, 1 ≤ i → Placed m s.starts i s.pc → 2 ≤ i ∧ i + m ≤ s.starts := by
      intro i hi hplace
      rw [hpc] at hplace
      simp only [Placed] at hplace
      omega
    split at hstep <;> obtain rfl := Option.some.inj hstep
    · exact h.zip hrolls htwo
    · refine h.setBackup hrolls (by simp) fun i hi hplace _ => ?_
      have hi := htwo i hi hplace
      exact ⟨by omega, hi⟩
  case h_4 hpc =>
    obtain rfl := Option.some.inj hstep
    refine h.zip (by rw [hpc]; rfl) fun i _ hplace => ?_
    rw [hpc] at hplace
    exact hplace
  case h_5 hpc =>
    obtain rfl := Option.some.inj hstep
    cases h with
    | inBase d hbegins hbase hm hlt =>
        refine .inBase d hbegins hbase hm (fun _ => hlt (by rw [hpc]; rfl)) (fun _ => ?_) nofun
        simp [hbase, LogFiles.setBackup]
    | inBackup d i hbegins hi hbackup hplace =>
        rw [hpc] at hplace
        have hne : i ≠ 1 := by
          have := hplace.1
          omega
        exact .inBackup d i hbegins hi (by rw [setBackup_ne s _ hne, hbackup]) hplace.2
  case h_6 hpc =>
    obtain rfl := Option.some.inj hstep
    cases h with
    | inBase d hbegins hbase hm hlt hcopy =>
        have hlt := hlt (by rw [hpc]; rfl)
        refine .inBackup d 1 hbegins (by omega) (hcopy hpc) ?_
        show 1 + m ≤ s.starts
        omega
    | inBackup d i hbegins hi hbackup hplace =>
        rw [hpc] at hplace
        exact .inBackup d i hbegins hi hbackup hplace
  case h_7 hpc =>
    obtain rfl := Option.some.inj hstep
    cases h with
    | inBase d hbegins hbase hm hlt hcopy hopening => exact absurd hpc hopening
    | inBackup d i hbegins hi hbackup hplace =>
        rw [hpc] at hplace
        exact .inBackup d i hbegins hi hbackup hplace
  case h_8 => cases hstep
  case h_9 => cases hstep

theorem Kept.step (h : Kept c m s) (hne : c ≠ []) (hfew : s'.starts ≤ m + loggingBackupCount)
    (hstep : s.step a = some s') : Kept c m s' := by
  cases a with
  | start => exact h.start hne hfew hstep
  | proceed => exact h.proceed hstep
  | log line =>
      obtain ⟨hpc, heq⟩ := Option.ite_none_right_eq_some.mp hstep
      obtain rfl := Option.some.inj heq
      cases h with
      | inBase d hbegins hbase hm hrolls hcopy hopening =>
          have hlonger : c <+: d ++ [line] := hbegins.trans (List.prefix_append d [line])
          exact .inBase (d ++ [line]) hlonger (by simp [hbase]) hm hrolls (by simp [hpc]) hopening
      | inBackup d i hbegins hi hbackup hplace => exact .inBackup d i hbegins hi hbackup hplace
  | ends =>
      obtain ⟨-, heq⟩ := Option.ite_none_left_eq_some.mp hstep
      obtain rfl := Option.some.inj heq
      cases h with
      | inBase d hbegins hbase hm => exact .inBase d hbegins hbase hm nofun nofun nofun
      | inBackup d i hbegins hi hbackup hplace => exact .inBackup d i hbegins hi hbackup hplace.le

/-- Handlers are only ever added. -/
theorem starts_le (hstep : s.step a = some s') : s.starts ≤ s'.starts := by
  cases a with
  | start =>
      obtain ⟨-, heq⟩ := Option.ite_none_right_eq_some.mp hstep
      split at heq <;> obtain rfl := Option.some.inj heq <;> exact Nat.le_succ _
  | proceed =>
      have hstarts : s'.starts = s.starts := by
        simp only [LogFiles.step, LogFiles.proceed, LogFiles.zip, LogFiles.rename] at hstep
        grind [LogFiles.setBackup]
      exact hstarts.ge
  | log line =>
      obtain ⟨-, heq⟩ := Option.ite_none_right_eq_some.mp hstep
      obtain rfl := Option.some.inj heq
      exact le_rfl
  | ends =>
      obtain ⟨-, heq⟩ := Option.ite_none_left_eq_some.mp hstep
      obtain rfl := Option.some.inj heq
      exact le_rfl

/-- Another handler whose rollover is interrupted after its first files. -/
def interrupted : List Act :=
  [.ends, .start] ++ List.replicate 5 .proceed ++ [.ends]

/-- A log with one line. -/
def oneLine : LogFiles := { base := some ["a line"], pc := .logging, starts := 1 }

/-- Rollovers are not interrupted. -/
def uninterrupted (s : LogFiles) : Act → Bool
  | .ends => s.pc == .logging
  | _ => true

/-- The files before the first handler. -/
def Initial (s : LogFiles) : Prop := s = {}

/-- Backup `i` of these logs. -/
def archived (logs : List Log) (i : Nat) : Option Backup :=
  if 1 ≤ i ∧ i ≤ loggingBackupCount then (logs[i - 1]?).map Backup.whole else none

/-- The backups above `j` have their next number. -/
structure Shifted (s : LogFiles) (logs : List Log) (j : Nat) : Prop where
  old : ∀ i, i ≤ j → s.backups i = archived logs i
  next : ∀ i, j + 1 ≤ i → i < loggingBackupCount → s.backups (i + 1) = archived logs i
  beyond : ∀ i, loggingBackupCount < i → s.backups i = none

/-- What is known at a position. -/
def OrderLaw (s : LogFiles) : LogPc → Prop
  | .closed | .logging | .zipped | .opening => ∀ i, s.backups i = archived s.sessions i
  | .shifting j => j < loggingBackupCount ∧ ∃ log logs, s.sessions = log :: logs ∧
      s.base = some log ∧ Shifted s logs j ∧
      (s.backups (j + 1) = none ∨
        (j + 1 = loggingBackupCount ∧ s.backups (j + 1) = archived logs (j + 1)))
  | .renaming j => j + 2 = loggingBackupCount ∧ ∃ log logs, s.sessions = log :: logs ∧
      s.base = some log ∧ Shifted s logs (j + 1) ∧ s.backups (j + 2) = none
  | .clearing => False
  | .zipping => ∃ log logs, s.sessions = log :: logs ∧ s.base = some log ∧ Shifted s logs 0

theorem archived_cons (log : Log) (logs : List Log) {i : Nat} (hi : 1 ≤ i)
    (hlt : i < loggingBackupCount) : archived (log :: logs) (i + 1) = archived logs i := by
  obtain ⟨k, rfl⟩ : ∃ k, i = k + 1 := ⟨i - 1, by omega⟩
  have hnext : k + 1 + 1 ≤ loggingBackupCount := hlt
  simp [archived, hlt.le, hnext]

/-- The backups have no gap. -/
theorem archived_none {logs : List Log} {i : Nat} (hi : 1 ≤ i) (hle : i ≤ loggingBackupCount)
    (h : archived logs i = none) : archived logs (i + 1) = none := by
  have hlength : logs.length ≤ i - 1 := by simpa [archived, hi, hle] using h
  have hlast : logs[i]? = none := List.getElem?_eq_none (by omega)
  simp [archived, hlast]

/-- A rename gives backup `j + 1` its next number. -/
theorem Shifted.rename {logs : List Log} {j : Nat} (h : Shifted s logs (j + 1))
    (hj : j + 1 < loggingBackupCount) : Shifted (s.rename j) logs j ∧
      (s.rename j).backups (j + 1) = none := by
  have hnone : (s.rename j).backups (j + 1) = none := by simp [LogFiles.rename, setBackup]
  refine ⟨⟨fun i hi => ?_, fun i hi hlt => ?_, fun i hi => ?_⟩, hnone⟩
  · rw [rename_ne s (by omega) (by omega), h.old i (by omega)]
  · by_cases hmoved : i = j + 1
    · subst hmoved
      rw [rename_next, h.old (j + 1) le_rfl]
    · rw [rename_ne s (by omega) (by omega), h.next i (by omega) hlt]
  · rw [rename_ne s (by omega) (by omega), h.beyond i hi]

theorem orderLaw_start (h : s.OrderLaw s.pc) (hstep : s.start = some s') :
    s'.OrderLaw s'.pc := by
  obtain ⟨hpc, heq⟩ := Option.ite_none_right_eq_some.mp hstep
  rw [hpc] at h
  split at heq <;> obtain rfl := Option.some.inj heq
  case h_1 => exact h
  case h_2 => exact h
  case h_3 hbase =>
    have hbeyond : ∀ i, loggingBackupCount < i → s.backups i = none := by
      intro i hi
      rw [h i, archived, if_neg (by omega)]
    refine ⟨by decide, _, s.sessions, rfl, hbase, ⟨fun i _ => h i, fun i hi hlt => ?_, hbeyond⟩,
      .inr ⟨rfl, h _⟩⟩
    simp only [loggingBackupCount] at hi hlt
    omega

theorem orderLaw_zip {log : Log} {logs : List Log} (hsessions : s.sessions = log :: logs)
    (hbase : s.base = some log) (h : Shifted s logs 0) : s.zip.OrderLaw s.zip.pc := by
  unfold LogFiles.zip
  rw [hbase]
  refine ⟨log, logs, hsessions, hbase, ?_⟩
  refine ⟨fun i hi => ?_, fun i hi hlt => ?_, fun i hi => ?_⟩
  · exact (setBackup_ne s _ (by omega)).trans (h.old i hi)
  · exact (setBackup_ne s _ (by omega)).trans (h.next i hi hlt)
  · simp only [loggingBackupCount] at hi
    exact (setBackup_ne s _ (by omega)).trans (h.beyond i hi)

theorem orderLaw_proceed (h : s.OrderLaw s.pc) (hstep : s.proceed = some s') :
    s'.OrderLaw s'.pc := by
  unfold LogFiles.proceed at hstep
  split at hstep
  case h_1 j hpc =>
    rw [hpc] at h
    obtain ⟨hj, log, logs, hsessions, hbase, hshifted, hgap⟩ := h
    split at hstep
    case isTrue hnone =>
      obtain rfl := Option.some.inj hstep
      have hold : archived logs (j + 1) = none := (hshifted.old (j + 1) le_rfl).symm.trans hnone
      have hnext : s.backups (j + 2) = none := by
        rcases hgap with hgap | ⟨-, hgap⟩
        · exact hgap
        · rw [hgap, archived_none (by omega) hj.le hold]
      refine ⟨by omega, log, logs, hsessions, hbase, ⟨fun i hi => hshifted.old i (by omega),
        fun i hi hlt => ?_, hshifted.beyond⟩, .inl hnone⟩
      by_cases hi' : i = j + 1
      · subst hi'
        rw [hold]
        exact hnext
      · exact hshifted.next i (by omega) hlt
    case isFalse hsome =>
      split at hstep <;> obtain rfl := Option.some.inj hstep
      case isTrue =>
        obtain ⟨hrenamed, hnone⟩ := hshifted.rename hj
        exact ⟨by omega, log, logs, hsessions, hbase, hrenamed, .inl hnone⟩
      case isFalse hnext =>
        obtain ⟨hlast, -⟩ := hgap.resolve_left hnext
        refine ⟨hlast, log, logs, hsessions, hbase,
          ⟨fun i hi => ?_, fun i hi hlt => ?_, fun i hi => ?_⟩, ?_⟩
        · exact (setBackup_ne s _ (by omega)).trans (hshifted.old i hi)
        · omega
        · exact (setBackup_ne s _ (by omega)).trans (hshifted.beyond i hi)
        · exact setBackup_self s _ _
  case h_2 j hpc =>
    rw [hpc] at h
    obtain ⟨hlast, log, logs, hsessions, hbase, hshifted, -⟩ := h
    obtain rfl := Option.some.inj hstep
    obtain ⟨hrenamed, hnone⟩ := hshifted.rename (by omega)
    exact ⟨by omega, log, logs, hsessions, hbase, hrenamed, .inl hnone⟩
  case h_3 hpc =>
    rw [hpc] at h
    obtain ⟨-, log, logs, hsessions, hbase, hshifted, hgap⟩ := h
    have hnone : s.backups 1 = none := by
      rcases hgap with hgap | ⟨hlast, -⟩
      · exact hgap
      · cases hlast
    rw [if_pos hnone] at hstep
    obtain rfl := Option.some.inj hstep
    exact orderLaw_zip hsessions hbase hshifted
  case h_4 hpc =>
    rw [hpc] at h
    exact h.elim
  case h_5 hpc =>
    rw [hpc] at h
    obtain ⟨log, logs, hsessions, hbase, hshifted⟩ := h
    obtain rfl := Option.some.inj hstep
    intro i
    show (s.setBackup 1 (s.base.map Backup.whole)).backups i = archived s.sessions i
    rw [hsessions, hbase]
    match i with
    | 0 => exact (setBackup_ne s _ Nat.zero_ne_one).trans (hshifted.old 0 le_rfl)
    | 1 => rw [setBackup_self]; rfl
    | i + 2 =>
        rw [setBackup_ne s _ (by omega)]
        by_cases hlt : i + 1 < loggingBackupCount
        · rw [hshifted.next (i + 1) (by omega) hlt, archived_cons log logs (by omega) hlt]
        · rw [hshifted.beyond (i + 2) (by omega), archived, if_neg (by omega)]
  case h_6 hpc =>
    rw [hpc] at h
    obtain rfl := Option.some.inj hstep
    exact h
  case h_7 hpc =>
    rw [hpc] at h
    obtain rfl := Option.some.inj hstep
    exact h
  case h_8 => cases hstep
  case h_9 => cases hstep

theorem orderLaw_step (h : s.OrderLaw s.pc) (hok : uninterrupted s a = true)
    (hstep : s.step a = some s') : s'.OrderLaw s'.pc := by
  cases a with
  | start => exact orderLaw_start h hstep
  | proceed => exact orderLaw_proceed h hstep
  | log line =>
      obtain ⟨hpc, heq⟩ := Option.ite_none_right_eq_some.mp hstep
      obtain rfl := Option.some.inj heq
      rw [hpc] at h
      show OrderLaw _ s.pc
      rw [hpc]
      exact h
  | ends =>
      obtain ⟨-, heq⟩ := Option.ite_none_left_eq_some.mp hstep
      obtain rfl := Option.some.inj heq
      have hpc : s.pc = .logging := by simpa [uninterrupted] using hok
      rw [hpc] at h
      exact h

/-- A handler with two lines, and a second one that rolls its log over. -/
def twoHandlers : List Act :=
  [.start, .log "first", .log "second", .ends, .start] ++ List.replicate 102 .proceed ++
    [.log "third"]

end LogFiles
