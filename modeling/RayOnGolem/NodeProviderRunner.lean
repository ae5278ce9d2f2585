import Mathlib.Logic.Function.Basic
import RayOnGolem.NodeProvider

/-!
# The ssh proxy of a command runner

Ray asks for the command runners of all nodes with one `auth_config`.  The first call writes
the proxy command of its node there, and every later call finds it and looks nothing up.

The calls of a requestor are a list; each names its `auth_config`, as several of them may be
in use, and what the server would answer for its node at that time.  After some calls an
`auth_config` holds the first answer, `firstReported`.  Main results:

* `own_ssh_proxy` -- every runner gets the proxy command of its own node if and only if the
  server's answers agree with the stored ones;
* `second_node_first_proxy` -- the runner of the second node goes to the first one.
-/

namespace NodeProvider

/-- A call of `get_command_runner`. -/
structure RunnerCall where
  args : RunnerArgs
  authConfig : Nat
  reported : Option (Option String)
  deriving DecidableEq, Repr

/-- The calls on the requestor's machine one after the other, each with its runner. -/
def commandRunners (baseProxyCommand : AuthConfig → Option String)
    (authConfigs : Nat → AuthConfig) : List RunnerCall → List (RunnerCall × Option SSHCommandRunner)
  | [] => []
  | c :: calls =>
      let result := getCommandRunner baseProxyCommand false c.args (authConfigs c.authConfig)
        c.reported
      (c, result.2) :: commandRunners baseProxyCommand
        (Function.update authConfigs c.authConfig result.1) calls

/-- The first proxy command that was reported in the calls with an `auth_config`. -/
def firstReported (authConfig : Nat) (calls : List RunnerCall) : Option (Option String) :=
  calls.findSome? fun c => if c.authConfig = authConfig then c.reported else none

/-- The runner of a call, if there is one, has the proxy command that the server reports. -/
def OwnProxy (c : RunnerCall) (r : Option SSHCommandRunner) : Prop :=
  ∀ runner, r = some runner → c.reported = some runner.sshProxyCommand

variable {baseProxyCommand : AuthConfig → Option String} {authConfigs : Nat → AuthConfig}

/-- The runner of one call. -/
theorem ownProxy_iff
    (hbase : ∀ d, baseProxyCommand d = (d.get "ssh_proxy_command").join) (c : RunnerCall)
    (authConfig : AuthConfig) :
    OwnProxy c (getCommandRunner baseProxyCommand false c.args authConfig c.reported).2 ↔
      ∀ p, authConfig.get "ssh_proxy_command" = some p → c.reported = some p := by
  cases hget : authConfig.get "ssh_proxy_command" with
  | none =>
      have hown : OwnProxy c
          (getCommandRunner baseProxyCommand false c.args authConfig c.reported).2 := by
        intro runner hrunner
        cases hreported : c.reported with
        | none => simp [getCommandRunner, hget, hreported] at hrunner
        | some p =>
            simp only [getCommandRunner, hget, hreported, Option.isNone_none, Bool.false_eq_true,
              not_false_eq_true, and_self, if_true, Option.some.injEq] at hrunner
            simp [← hrunner, SSHCommandRunner.init, hbase]
      exact iff_of_true hown fun p hp => by cases hp
  | some p =>
      have hrunner : (getCommandRunner baseProxyCommand false c.args authConfig c.reported).2 =
          some (.init baseProxyCommand c.args authConfig) := by
        simp [getCommandRunner, hget]
      have hproxy : (SSHCommandRunner.init baseProxyCommand c.args authConfig).sshProxyCommand =
          p := by
        simp [SSHCommandRunner.init, hbase, hget]
      rw [hrunner]
      constructor
      · rintro hown q hq
        obtain rfl := Option.some.inj hq
        rw [← hproxy]
        exact hown _ rfl
      · intro hagree runner hr
        obtain rfl := Option.some.inj hr
        rw [hproxy]
        exact hagree p rfl

/-- What a call leaves in its `auth_config`. -/
theorem get_getCommandRunner (c : RunnerCall) (authConfig : AuthConfig) :
    (getCommandRunner baseProxyCommand false c.args authConfig c.reported).1.get
        "ssh_proxy_command" =
      (authConfig.get "ssh_proxy_command").or c.reported := by
  cases hget : authConfig.get "ssh_proxy_command" with
  | none =>
      cases hreported : c.reported with
      | none => simp [getCommandRunner, hget]
      | some p => simp [getCommandRunner, hget]
  | some p => simp [getCommandRunner, hget]

/-- What the `auth_config`s hold after a call. -/
theorem stored_cons (baseProxyCommand : AuthConfig → Option String) (c : RunnerCall)
    (earlier : List RunnerCall) (i : Nat) :
    ((Function.update authConfigs c.authConfig
        (getCommandRunner baseProxyCommand false c.args (authConfigs c.authConfig)
          c.reported).1 i).get "ssh_proxy_command").or (firstReported i earlier) =
      ((authConfigs i).get "ssh_proxy_command").or (firstReported i (c :: earlier)) := by
  unfold firstReported
  by_cases hi : c.authConfig = i
  · subst hi
    rw [Function.update_self, get_getCommandRunner, Option.or_assoc, List.findSome?_cons]
    cases c.reported <;> simp
  · rw [Function.update_of_ne (Ne.symm hi), List.findSome?_cons]
    simp [hi]

/-- The runners of a list of calls. -/
theorem ownProxies_iff
    (hbase : ∀ d, baseProxyCommand d = (d.get "ssh_proxy_command").join)
    (calls : List RunnerCall) :
    (∀ e ∈ commandRunners baseProxyCommand authConfigs calls, OwnProxy e.1 e.2) ↔
      ∀ earlier c later, calls = earlier ++ c :: later → ∀ p,
        ((authConfigs c.authConfig).get "ssh_proxy_command").or
          (firstReported c.authConfig earlier) = some p →
        c.reported = some p := by
  induction calls generalizing authConfigs with
  | nil => simp [commandRunners]
  | cons c calls ih =>
      rw [commandRunners, List.forall_mem_cons, ownProxy_iff hbase, ih]
      constructor
      · rintro ⟨hfirst, hrest⟩ earlier d later hcalls p hp
        cases earlier with
        | nil =>
            obtain ⟨rfl, -⟩ := List.cons.inj hcalls
            exact hfirst p (by simpa [firstReported] using hp)
        | cons e earlier =>
            obtain ⟨rfl, htail⟩ := List.cons.inj hcalls
            rw [← stored_cons baseProxyCommand] at hp
            exact hrest earlier d later htail p hp
      · intro hall
        refine ⟨fun p hp => hall [] c calls rfl p (by simpa [firstReported] using hp), ?_⟩
        intro earlier d later hcalls p hp
        rw [stored_cons] at hp
        exact hall (c :: earlier) d later (by rw [hcalls]; rfl) p hp

/-- **Every runner has its own node's proxy if and only if the server's answers agree with
the stored ones**: at every call it reports for the node what it reported in the first of the
calls with the same `auth_config`, if there was one. -/
theorem own_ssh_proxy (hbase : ∀ d, baseProxyCommand d = (d.get "ssh_proxy_command").join)
    (hfresh : ∀ i, (authConfigs i).get "ssh_proxy_command" = none) (calls : List RunnerCall) :
    (∀ e ∈ commandRunners baseProxyCommand authConfigs calls, OwnProxy e.1 e.2) ↔
      ∀ earlier c later, calls = earlier ++ c :: later → ∀ p,
        firstReported c.authConfig earlier = some p → c.reported = some p := by
  rw [ownProxies_iff hbase]
  simp only [hfresh, Option.none_or]

/-- The constructor of Ray's runner takes the entry of `auth_config`, or `None`. -/
def rayProxyCommand (d : AuthConfig) : Option String := (d.get "ssh_proxy_command").join

/-- The `auth_config` of a configuration file. -/
def freshConfig (_ : Nat) : AuthConfig :=
  ⟨[("ssh_user", some "root"), ("ssh_private_key", some "/tmp/ray_on_golem/key")]⟩

/-- The calls for a head node and for a worker, with one `auth_config`. -/
def headCall : RunnerCall := ⟨⟨"head", "node0", "default", true⟩, 0, some (some "proxy to node0")⟩
def workerCall : RunnerCall :=
  ⟨⟨"worker", "node1", "default", true⟩, 0, some (some "proxy to node1")⟩

/-- Two calls for one node. -/
theorem own_ssh_proxy_head :
    (∀ e ∈ commandRunners rayProxyCommand freshConfig [headCall, headCall], OwnProxy e.1 e.2) ↔
      ∀ earlier c later, [headCall, headCall] = earlier ++ c :: later → ∀ p,
        firstReported c.authConfig earlier = some p → c.reported = some p :=
  own_ssh_proxy (fun _ => rfl) (fun _ => rfl) [headCall, headCall]

/-- **The runner of the second node goes to the first one**, and the runner of a node that
was not ready at first has no proxy ever after. -/
theorem second_node_first_proxy :
    (commandRunners rayProxyCommand freshConfig [headCall, workerCall]).map (·.2) =
        [some ⟨headCall.args, some "proxy to node0"⟩,
          some ⟨workerCall.args, some "proxy to node0"⟩] ∧
      (commandRunners rayProxyCommand freshConfig
          [{ headCall with reported := some none }, headCall]).map (·.2) =
        [some ⟨headCall.args, none⟩, some ⟨headCall.args, none⟩] ∧
      ¬ ∀ e ∈ commandRunners rayProxyCommand freshConfig [headCall, workerCall],
        OwnProxy e.1 e.2 := by
  refine ⟨rfl, rfl, fun hall => ?_⟩
  have hworker := hall (workerCall, some ⟨workerCall.args, some "proxy to node0"⟩)
    (List.mem_cons_of_mem _ List.mem_cons_self) _ rfl
  exact absurd hworker (by decide)

end NodeProvider
