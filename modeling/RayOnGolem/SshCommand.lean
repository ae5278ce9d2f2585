import RayOnGolem.Lib.Dict
import RayOnGolem.Lib.RemoteShell
import RayOnGolem.Lib.ShellQuote

/-!
# The ssh commands

The program runs ssh in four ways: it executes the arguments of `get_ssh_command_args` and those
of a port tunnel, it writes a command for the shell (`get_ssh_command`), and it hands rsync a
remote shell command (`run_rsync_up`, `run_rsync_down`).  The proxy command of the node, which
ssh has a shell run, holds the token of yagna.

The shell is the specification `ShellQuote.shell`, rsync is a parameter that splits its remote
shell command as its manual says, and what ssh itself makes of its options (quotes, backslashes,
`%`) is left out.  No text has the character NUL.

Main results, for all texts:

* `get_ssh_command_splits` -- the shell finds in `get_ssh_command` the arguments of
  `get_ssh_command_args`;
* `rsync_options_exact` -- rsync runs ssh with the options of the runner if and only if the proxy
  command has no double quote, where the other options are portable; downwards, options for the
  filters have to be given as well;
* `token_delivered` -- ssh is run with a proxy command that the shell reads as websocat with the
  token as it is, if and only if the token has no single quote.
-/

/-- A text. -/
abbrev Text := List Char

/-- The option of ssh that names a proxy command. -/
def proxyOption (sshProxyCommand : Text) : Text := "ProxyCommand=".toList ++ sshProxyCommand

/-- `SSH_SERVER_ALIVE_INTERVAL`. -/
def sshServerAliveInterval : Nat := 300

/-- `SSH_SERVER_ALIVE_COUNT_MAX`. -/
def sshServerAliveCountMax : Nat := 3

/-- `get_ssh_command_args`. -/
def getSshCommandArgs (ip sshProxyCommand sshUser sshPrivateKeyPath : Text) : List Text :=
  [ "ssh".toList,
    "-vvv".toList,
    "-o".toList,
    "StrictHostKeyChecking=no".toList,
    "-o".toList,
    "UserKnownHostsFile=/dev/null".toList,
    "-o".toList,
    "PasswordAuthentication=no".toList,
    "-o".toList,
    ("ServerAliveInterval=" ++ toString sshServerAliveInterval).toList,
    "-o".toList,
    ("ServerAliveCountMax=" ++ toString sshServerAliveCountMax).toList,
    "-o".toList,
    proxyOption sshProxyCommand,
    "-i".toList,
    sshPrivateKeyPath,
    sshUser ++ '@' :: ip ]

/-- `get_ssh_command`. -/
def getSshCommand (ip sshProxyCommand sshUser sshPrivateKeyPath : Text) : Text :=
  [' '].intercalate
    ((getSshCommandArgs ip sshProxyCommand sshUser sshPrivateKeyPath).map ShellQuote.quote)

/-- The arguments with which `PortTunnelClusterNodeSidecar.start` executes ssh. -/
def tunnelCommandArgs (reverse : Bool) (remotePort localPort : Nat)
    (ip sshProxyCommand sshUser sshPrivateKeyPath : Text) : List Text :=
  [ "ssh".toList,
    "-N".toList,
    if reverse then "-R".toList else "-L".toList,
    ("*:" ++ toString remotePort ++ ":127.0.0.1:" ++ toString localPort).toList,
    "-o".toList,
    "StrictHostKeyChecking=no".toList,
    "-o".toList,
    "UserKnownHostsFile=/dev/null".toList,
    "-o".toList,
    proxyOption sshProxyCommand,
    "-i".toList,
    sshPrivateKeyPath,
    sshUser ++ '@' :: ip ]

/-- `GolemService.get_ssh_proxy_command`. -/
def getSshProxyCommand (websocatPath connectionUri yagnaAppkey : Text) : Text :=
  websocatPath ++ " asyncstdio: ".toList ++ connectionUri ++
    "/22 --binary -H=Authorization:'Bearer ".toList ++ yagnaAppkey ++ ['\'']

/-- The options of `run_rsync_up` and `run_rsync_down`. -/
abbrev RsyncOptions := Dict Text (List Text)

/-- `_create_rsync_filter_args(options=options)`: it calls `options.get`, which `None` lacks. -/
def filterArgs (createRsyncFilterArgs : RsyncOptions → List Text) (options : Option RsyncOptions) :
    Option (List Text) :=
  options.map createRsyncFilterArgs

/-- What the commands of `run_rsync_up` and `run_rsync_down` have in common; `sshOptions` is what
`to_ssh_options_list` gives. -/
def rsyncCommand (sshOptions rsyncFilterArgs : List Text) : List Text :=
  ["rsync".toList] ++
    ["--rsh".toList, RemoteShell.list2cmdline ("ssh".toList :: sshOptions)] ++
    ["-avz".toList] ++
    ["--no-o".toList] ++
    ["--no-g".toList] ++
    ["-v".toList, "--stats".toList, "--progress".toList] ++
    rsyncFilterArgs

/-- The command of `SSHCommandRunner.run_rsync_up`. -/
def runRsyncUp (createRsyncFilterArgs : RsyncOptions → List Text) (sshOptions : List Text)
    (sshUser sshIp source target : Text) (options : Option RsyncOptions) : Option (List Text) :=
  (filterArgs createRsyncFilterArgs (some (options.getD {}))).map fun args =>
    rsyncCommand sshOptions args ++ [source, sshUser ++ '@' :: sshIp ++ ':' :: target]

/-- The command of `SSHCommandRunner.run_rsync_down`, which lacks `options = options or {}`. -/
def runRsyncDown (createRsyncFilterArgs : RsyncOptions → List Text) (sshOptions : List Text)
    (sshUser sshIp source target : Text) (options : Option RsyncOptions) : Option (List Text) :=
  (filterArgs createRsyncFilterArgs options).map fun args =>
    rsyncCommand sshOptions args ++ [sshUser ++ '@' :: sshIp ++ ':' :: source, target]

/-! ### What is made of the commands -/

/-- The remote shell of an rsync command. -/
def rsyncRemoteShell : List Text → Option Text
  | a :: b :: args => if a = "--rsh".toList then some b else rsyncRemoteShell (b :: args)
  | _ => none

/-- The arguments with which rsync runs ssh, if it is run. -/
def rsyncSshArgs (rsync : Text → Option (List Text)) (command : Option (List Text)) :
    Option (List Text) :=
  (command.bind rsyncRemoteShell).bind rsync

/-- The first proxy command among the arguments of ssh, which counts. -/
def firstProxyCommand (args : List Text) : Option Text :=
  args.findSome? fun a => a.dropPrefix? "ProxyCommand=".toList

/-- How websocat is meant to be run. -/
def websocatArgs (websocatPath connectionUri yagnaAppkey : Text) : List Text :=
  [ websocatPath,
    "asyncstdio:".toList,
    connectionUri ++ "/22".toList,
    "--binary".toList,
    "-H=Authorization:Bearer ".toList ++ yagnaAppkey ]

/-- A text on which the shell does not act, as a path or a URI is. -/
def PlainText (s : Text) : Prop := s ≠ [] ∧ s.all ShellQuote.literal = true

instance (s : Text) : Decidable (PlainText s) := inferInstanceAs (Decidable (_ ∧ _))

section

open WordScanner.Scanner ShellQuote RemoteShell

variable {w u k : Text}

/-- **The shell reads `get_ssh_command` as `get_ssh_command_args`.** -/
theorem get_ssh_command_splits (ip sshProxyCommand sshUser sshPrivateKeyPath : Text) :
    shellWords (getSshCommand ip sshProxyCommand sshUser sshPrivateKeyPath) =
      some (getSshCommandArgs ip sshProxyCommand sshUser sshPrivateKeyPath) :=
  shellWords_quote _

/-! ### The proxy command -/

theorem readsWord_plain {s : Text} (hne : s ≠ []) (h : s.all literal = true) :
    ReadsWord shell .plain ' ' s s :=
  ⟨.plain, reads_literal hne h, rfl, rfl⟩

/-- The words before the one with the token. -/
def websocatWords (w u : Text) : List Text :=
  [w, "asyncstdio:".toList, u ++ "/22".toList, "--binary".toList]

theorem readsWord_websocat (hw : PlainText w) (hu : PlainText u) :
    ∀ v ∈ websocatWords w u, ReadsWord shell .plain ' ' (id v) v := by
  intro v hv
  simp only [websocatWords, List.mem_cons, List.not_mem_nil, or_false] at hv
  rcases hv with rfl | rfl | rfl | rfl
  · exact readsWord_plain hw.1 hw.2
  · exact readsWord_plain (by decide) (by decide)
  · have hport : "/22".toList.all literal = true := by decide
    exact readsWord_plain (by simp [hu.1]) (by rw [id, List.all_append, hu.2, hport]; rfl)
  · exact readsWord_plain (by decide) (by decide)

theorem getSshProxyCommand_eq (w u k : Text) :
    getSshProxyCommand w u k =
      ((websocatWords w u).map id).flatMap (· ++ [' ']) ++
        ("-H=Authorization:'Bearer ".toList ++ (k ++ ['\''])) := by
  simp [getSshProxyCommand, websocatWords]

/-- The option up to the token. -/
theorem reads_authorization :
    Reads shell .plain .single "-H=Authorization:'Bearer ".toList
      "-H=Authorization:Bearer ".toList := by
  have hname : Reads shell .plain .plain "-H=Authorization:".toList "-H=Authorization:".toList :=
    reads_literal (by decide) (by decide)
  have hopen : Reads shell .plain .single ("-H=Authorization:".toList ++ ['\''])
      ("-H=Authorization:".toList ++ []) := hname.append (reads_start rfl)
  simpa using reads_single hopen (b := "Bearer ".toList) (by decide)

/-- The shell passes the token on as it is if and only if it has no single quote. -/
theorem proxy_command_splits (hw : PlainText w) (hu : PlainText u) (k : Text) :
    shellWords (getSshProxyCommand w u k) = some (websocatArgs w u k) ↔ '\'' ∉ k := by
  rw [getSshProxyCommand_eq]
  constructor
  · intro h
    have hpre := scan_words (readsWord_websocat hw hu) []
    exact not_mem_of_chars reads_authorization hpre h (by simp [websocatWords, websocatArgs])
  · intro hk
    have hlast : Reads shell .plain .plain ("-H=Authorization:'Bearer ".toList ++ (k ++ ['\'']))
        ("-H=Authorization:Bearer ".toList ++ k) := by
      simpa using (reads_single reads_authorization hk).drop rfl
    exact split_words (readsWord_websocat hw hu) hlast rfl

/-! ### The ways in which ssh is run -/

/-- The first option with a proxy command counts. -/
theorem firstProxyCommand_append (before : List Text) (p : Text) (after : List Text)
    (h : ∀ a ∈ before, a.dropPrefix? "ProxyCommand=".toList = none) :
    firstProxyCommand (before ++ proxyOption p :: after) = some p := by
  have hnone : before.findSome? (fun a => a.dropPrefix? "ProxyCommand=".toList) = none :=
    List.findSome?_eq_none_iff.mpr h
  have hself : (proxyOption p).dropPrefix? "ProxyCommand=".toList = some p :=
    List.dropPrefix?_append_of_beq p (by decide)
  rw [firstProxyCommand, List.findSome?_append, hnone, Option.none_or, List.findSome?_cons, hself]

theorem firstProxyCommand_args (ip p sshUser sshPrivateKeyPath : Text) :
    firstProxyCommand (getSshCommandArgs ip p sshUser sshPrivateKeyPath) = some p := by
  have hfixed : (getSshCommandArgs ip p sshUser sshPrivateKeyPath).take 13 =
      (getSshCommandArgs [] [] [] []).take 13 := rfl
  refine firstProxyCommand_append
    ((getSshCommandArgs ip p sshUser sshPrivateKeyPath).take 13) p _ ?_
  rw [hfixed]
  decide

theorem firstProxyCommand_skip {a : Text} (args : List Text)
    (h : a.dropPrefix? "ProxyCommand=".toList = none) :
    firstProxyCommand (a :: args) = firstProxyCommand args := by
  rw [firstProxyCommand, List.findSome?_cons, h, firstProxyCommand]

theorem firstProxyCommand_tunnel (reverse : Bool) (remotePort localPort : Nat)
    (ip p sshUser sshPrivateKeyPath : Text) :
    firstProxyCommand (tunnelCommandArgs reverse remotePort localPort ip p sshUser
      sshPrivateKeyPath) = some p := by
  have hports :
      ("*:" ++ toString remotePort ++ ":127.0.0.1:" ++ toString localPort).toList.dropPrefix?
        "ProxyCommand=".toList = none := by
    simp only [String.toList_append]
    rfl
  unfold tunnelCommandArgs
  rw [firstProxyCommand_skip _ (by decide), firstProxyCommand_skip _ (by decide),
    firstProxyCommand_skip _ (by cases reverse <;> decide), firstProxyCommand_skip _ hports,
    firstProxyCommand_skip _ (by decide), firstProxyCommand_skip _ (by decide),
    firstProxyCommand_skip _ (by decide), firstProxyCommand_skip _ (by decide),
    firstProxyCommand_skip _ (by decide)]
  exact firstProxyCommand_append [] p _ (by simp)

/-- The option of the runner is portable if and only if it has no double quote. -/
theorem portable_proxy (w u k : Text) :
    Portable (proxyOption (getSshProxyCommand w u k)) ↔ '"' ∉ w ∧ '"' ∉ u ∧ '"' ∉ k := by
  have hblank : ' ' ∈ proxyOption (getSshProxyCommand w u k) := by
    have hmem : ' ' ∈ " asyncstdio: ".toList := by decide
    unfold proxyOption getSshProxyCommand
    generalize " asyncstdio: ".toList = a at hmem ⊢
    simp [hmem]
  have hlast : (proxyOption (getSshProxyCommand w u k)).getLast? = some '\'' := by
    unfold proxyOption getSshProxyCommand
    rw [← List.append_assoc, List.getLast?_concat]
  have hquote : '"' ∉ proxyOption (getSshProxyCommand w u k) ↔
      '"' ∉ w ∧ '"' ∉ u ∧ '"' ∉ k := by
    have hoption : '"' ∉ "ProxyCommand=".toList := by decide
    have hname : '"' ∉ " asyncstdio: ".toList := by decide
    have hheader : '"' ∉ "/22 --binary -H=Authorization:'Bearer ".toList := by decide
    unfold proxyOption getSshProxyCommand
    generalize "ProxyCommand=".toList = a at hoption ⊢
    generalize " asyncstdio: ".toList = b at hname ⊢
    generalize "/22 --binary -H=Authorization:'Bearer ".toList = c at hheader ⊢
    simp [hoption, hname, hheader]
  rw [Portable, needquote_of_blank hblank, hlast, hquote]
  simp

theorem rsyncRemoteShell_command (sshOptions rsyncFilterArgs rest : List Text) :
    rsyncRemoteShell (rsyncCommand sshOptions rsyncFilterArgs ++ rest) =
      some (list2cmdline ("ssh".toList :: sshOptions)) := rfl

/-- **rsync runs ssh with the options of the runner** if and only if the proxy command has no
double quote; downwards, it is only run if options for the filters are given. -/
theorem rsync_options_exact {rsync : Text → Option (List Text)} (hrsync : FollowsManual rsync)
    (createRsyncFilterArgs : RsyncOptions → List Text) {sshOptions : List Text}
    (before after : List Text)
    (hoptions : sshOptions = before ++ proxyOption (getSshProxyCommand w u k) :: after)
    (hportable : ∀ a ∈ before ++ after, Portable a) (sshUser sshIp source target : Text)
    (options : Option RsyncOptions) :
    (rsyncSshArgs rsync
        (runRsyncUp createRsyncFilterArgs sshOptions sshUser sshIp source target options) =
          some ("ssh".toList :: sshOptions) ↔ '"' ∉ w ∧ '"' ∉ u ∧ '"' ∉ k) ∧
      (rsyncSshArgs rsync
        (runRsyncDown createRsyncFilterArgs sshOptions sshUser sshIp source target options) =
          some ("ssh".toList :: sshOptions) ↔
            options ≠ none ∧ '"' ∉ w ∧ '"' ∉ u ∧ '"' ∉ k) := by
  have hall : (∀ a ∈ "ssh".toList :: sshOptions, Portable a) ↔
      '"' ∉ w ∧ '"' ∉ u ∧ '"' ∉ k := by
    rw [← portable_proxy w u k, hoptions]
    constructor
    · intro h
      exact h _ (by simp)
    · intro h a ha
      have hssh : Portable "ssh".toList := by decide
      simp only [List.mem_cons, List.mem_append] at ha
      rcases ha with rfl | ha | rfl | ha
      · exact hssh
      · exact hportable a (List.mem_append_left _ ha)
      · exact h
      · exact hportable a (List.mem_append_right _ ha)
  have hsplits : rsync (list2cmdline ("ssh".toList :: sshOptions)) =
      some ("ssh".toList :: sshOptions) ↔ '"' ∉ w ∧ '"' ∉ u ∧ '"' ∉ k := by
    rw [hrsync]
    exact (splits_iff _).trans hall
  constructor
  · simp only [rsyncSshArgs, runRsyncUp, filterArgs, Option.map_some, Option.bind_some,
      rsyncRemoteShell_command]
    exact hsplits
  · cases options with
    | none => simp [rsyncSshArgs, runRsyncDown, filterArgs]
    | some o =>
        simp only [rsyncSshArgs, runRsyncDown, filterArgs, Option.map_some, Option.bind_some,
          rsyncRemoteShell_command]
        rw [hsplits]
        simp

/-- ssh is run with a proxy command that the shell reads as websocat with the token. -/
def Delivers (w u k : Text) (args : Option (List Text)) : Prop :=
  (args.bind firstProxyCommand).bind shellWords = some (websocatArgs w u k)

/-- **The token is delivered as it is**, by the command runner's shell command, by the arguments
that are executed and by the port tunnel, if and only if it has no single quote. -/
theorem token_delivered (hw : PlainText w) (hu : PlainText u) (k : Text)
    (ip sshUser sshPrivateKeyPath : Text) (reverse : Bool) (remotePort localPort : Nat) :
    (Delivers w u k (some (getSshCommandArgs ip (getSshProxyCommand w u k) sshUser
        sshPrivateKeyPath)) ↔ '\'' ∉ k) ∧
      (Delivers w u k (some (tunnelCommandArgs reverse remotePort localPort ip
        (getSshProxyCommand w u k) sshUser sshPrivateKeyPath)) ↔ '\'' ∉ k) ∧
      (Delivers w u k (shellWords (getSshCommand ip (getSshProxyCommand w u k) sshUser
        sshPrivateKeyPath)) ↔ '\'' ∉ k) := by
  have hargs : Delivers w u k (some (getSshCommandArgs ip (getSshProxyCommand w u k) sshUser
      sshPrivateKeyPath)) ↔ '\'' ∉ k := by
    rw [Delivers, Option.bind_some, firstProxyCommand_args, Option.bind_some]
    exact proxy_command_splits hw hu k
  refine ⟨hargs, ?_, ?_⟩
  · rw [Delivers, Option.bind_some, firstProxyCommand_tunnel, Option.bind_some]
    exact proxy_command_splits hw hu k
  · rw [getSshCommand, shellWords_quote]
    exact hargs

end

/-! ### A token -/

/-- A path. -/
def somePath : Text := "/usr/bin/websocat".toList

/-- A connection. -/
def someUri : Text := "ws://127.0.0.1:7465/net/1/tcp/192.168.0.2".toList

/-- A token as yagna makes them. -/
def someToken : Text := "7c5a02d0e4b94f1f".toList

/-- What the options of a runner look like. -/
def someOptions : List Text :=
  ["-i".toList, "/root/key".toList, "-o".toList] ++
    proxyOption (getSshProxyCommand somePath someUri someToken) ::
      ["-o".toList, "ConnectTimeout=120s".toList]

theorem rsync_options_exact_someToken :
    rsyncSshArgs RemoteShell.rshWords (runRsyncUp (fun _ => []) someOptions "root".toList
        "192.168.0.2".toList "a".toList "b".toList none) = some ("ssh".toList :: someOptions) ∧
      rsyncSshArgs RemoteShell.rshWords (runRsyncDown (fun _ => []) someOptions "root".toList
        "192.168.0.2".toList "a".toList "b".toList none) ≠ some ("ssh".toList :: someOptions) := by
  have hexact := rsync_options_exact (w := somePath) (u := someUri) (k := someToken)
    (fun _ => rfl) (fun _ => []) ["-i".toList, "/root/key".toList, "-o".toList]
    ["-o".toList, "ConnectTimeout=120s".toList] rfl (by decide) "root".toList
    "192.168.0.2".toList "a".toList "b".toList none
  exact ⟨hexact.1.mpr (by decide), fun h => (hexact.2.mp h).1 rfl⟩

theorem token_delivered_someToken :
    Delivers somePath someUri someToken (some (getSshCommandArgs "192.168.0.2".toList
      (getSshProxyCommand somePath someUri someToken) "root".toList "/root/key".toList)) :=
  (token_delivered (by decide +kernel) (by decide +kernel) someToken "192.168.0.2".toList
    "root".toList "/root/key".toList false 80 80).1.mpr (by decide)
