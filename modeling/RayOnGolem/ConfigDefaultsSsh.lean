import RayOnGolem.ConfigDefaultsParameters

/-!
# Config defaults: the ssh details

What `_apply_config_defaults` does after the loop: the config gets defaults for its ssh
details, which are copied to the provider parameters (`applySshDefaults_ends`).
-/

namespace ConfigDefaults

open PyHeap PathView

/-- A value that is not a container. -/
def scalar (s : Scalar) : Plain
  | [] => some (.atom s)
  | _ :: _ => none

/-- A value at a path, unless there is one. -/
def orElse (v : Plain) (p : List (Seg Scalar)) (w : Plain) : Plain :=
  if v p = none then v.setAt w p else v

def authPath : List (Seg Scalar) := [.key "auth"]

def sshPrivateKeyPath : List (Seg Scalar) := [.key "auth", .key "ssh_private_key"]

def sshUserPath : List (Seg Scalar) := [.key "auth", .key "ssh_user"]

/-- The cluster name, if it is a text. -/
def clusterName (v : Plain) : Option String :=
  match v [.key "cluster_name"] with
  | some (.atom (.str s)) => some s
  | _ => none

section Spec

variable (md5 : String → String)

/-- The path of the default key. -/
def defaultKeyPath (v : Plain) : Scalar :=
  .str (TMP_PATH ++ "/" ++ getDefaultSshKeyName md5 ((clusterName v).getD ""))

/-- The ssh details with their defaults. -/
def withSshDefaults (v : Plain) : Plain :=
  let v := orElse v authPath emptyDict
  let v := orElse v sshUserPath (scalar "root")
  orElse v sshPrivateKeyPath (scalar (defaultKeyPath md5 v))

/-- The ssh details, also in the provider parameters. -/
def withSsh (v : Plain) : Plain :=
  let v := withSshDefaults md5 v
  let v := v.setAt (v.under sshPrivateKeyPath) (parametersPath ++ [.key "ssh_private_key"])
  v.setAt (v.under sshUserPath) (parametersPath ++ [.key "ssh_user"])

end Spec

/-- The config has this value, and the dictionaries at some paths stand there only. -/
structure ConfigReady (h : Heap) (c : Nat) (owned : List (List (Seg Scalar))) (v : Plain) :
    Prop where
  valid : Valid h
  live : (Value.ref c : Value).Live h.length
  defaults : moduleHeap <+: h
  fresh : ∀ r, (view h (.ref c)).Has r → moduleHeap.length ≤ r
  value : (view h (.ref c)).erase = v
  owned : ∀ q ∈ owned, Owned h (.ref c) q

variable {h h' : Heap} {c r : Nat} {owned : List (List (Seg Scalar))} {v : Plain}
  {p q : List (Seg Scalar)} {k : Scalar} {w : Value}

/-- New objects change nothing. -/
theorem ConfigReady.append (hc : ConfigReady h c owned v) {l : List (Obj Scalar Scalar)}
    (hvalid : Valid (h ++ l)) : ConfigReady (h ++ l) c owned v := by
  have hview := view_append hc.valid hc.live l
  refine ⟨hvalid, hc.live.mono (by simp), hc.defaults.trans (List.prefix_append _ _), ?_, ?_,
    fun q hq => ?_⟩
  · rw [hview]
    exact hc.fresh
  · rw [hview]
    exact hc.value
  · obtain ⟨r, hr, hs⟩ := hc.owned q hq
    exact ⟨r, hview ▸ hr, hview ▸ hs⟩

theorem ConfigReady.find_none_iff (hc : ConfigReady h c owned v) :
    find h (.ref c) q = none ↔ v q = none := by
  rw [← hc.value]
  simp [View.erase, view]

/-- One assignment to an owned dictionary. -/
theorem ConfigReady.put (hc : ConfigReady h c owned v) (hp : p ∈ owned)
    (hfind : find h (.ref c) p = some (.ref r)) (hw : w.Live h.length)
    (hfresh : ∀ x, (view h w).Has x → moduleHeap.length ≤ x)
    (hapart : ∀ q ∈ owned, ∀ x, find h (.ref c) q = some (.ref x) → ¬ (view h w).Has x)
    (hpaths : ∀ q ∈ owned, ¬ p ++ [.key k] <+: q) :
    ∃ h', setItem h (.ref r) k w = some h' ∧
      view h' (.ref c) = (view h (.ref c)).setAt (view h w) (p ++ [.key k]) ∧
      ConfigReady h' c owned (v.setAt (view h w).erase (p ++ [.key k])) ∧
      ∀ q ∈ owned, find h' (.ref c) q = find h (.ref c) q := by
  obtain ⟨r', hr', hs⟩ := hc.owned p hp
  obtain ⟨hfind', d, hd⟩ := view_eq_dict_iff.mp hr'
  obtain rfl : r = r' := by simpa [hfind] using hfind'
  obtain ⟨h', hset, ha⟩ := setItem_assigned hc.valid hd hw k
  refine ⟨h', hset, ?_⟩
  have hview : view h' (.ref c) = (view h (.ref c)).setAt (view h w) (p ++ [.key k]) := by
    rw [view_assign hfind hs hd ha.self fun x _ hne => ha.other x hne]
    have hsame : view h' w = view h w := view_congr fun x hx => ha.other x fun heq =>
      hapart p hp r hfind (heq ▸ hx)
    rw [hsame]
  have hat : ∀ q ∈ owned, view h' (.ref c) q = view h (.ref c) q := fun q hq => by
    rw [hview, View.setAt_of_outside (hpaths q hq)]
  refine ⟨hview, ⟨ha.valid, ha.length ▸ hc.live, ?_, ?_, ?_, fun q hq => ?_⟩, fun q hq =>
    find_of_view (hat q hq)⟩
  · refine List.prefix_iff_getElem?.mpr fun x hx => ?_
    have hne : x ≠ r := by
      have hge := hc.fresh r (has_of_dict hr')
      omega
    rw [ha.other x hne, List.prefix_iff_getElem?.mp hc.defaults x hx]
  · rintro x ⟨q, hq⟩
    rw [hview] at hq
    rcases View.ident_setAt hq with ⟨q', -, hin⟩ | ⟨-, hold⟩
    · exact hfresh x ⟨q', hin⟩
    · exact hc.fresh x ⟨q, hold⟩
  · rw [hview, View.erase, View.map_setAt, ← hc.value]
    rfl
  · obtain ⟨x, hx, hxs⟩ := hc.owned q hq
    refine ⟨x, (hat q hq).trans hx, ?_⟩
    rw [hview]
    exact hxs.setAt (hapart q hq x (view_eq_dict_iff.mp hx).1)

theorem view_scalar (h : Heap) (s : Scalar) : (view h (.atom s)).erase = scalar s := by
  funext p
  cases p with
  | nil => rfl
  | cons t p => rfl

theorem not_has_atom (s : Scalar) (x : Nat) : ¬ (view h (.atom s)).Has x := by
  rintro ⟨p, hp⟩
  exact find_atom_ne_ref h s p x (ident_view.mp hp)

/-- An assigned scalar. -/
theorem ConfigReady.putScalar (hc : ConfigReady h c owned v) (hp : p ∈ owned)
    (hfind : find h (.ref c) p = some (.ref r)) (hpaths : ∀ q ∈ owned, ¬ p ++ [.key k] <+: q)
    (s : Scalar) :
    ∃ h', setItem h (.ref r) k (.atom s) = some h' ∧
      ConfigReady h' c owned (v.setAt (scalar s) (p ++ [.key k])) ∧
      ∀ q ∈ owned, find h' (.ref c) q = find h (.ref c) q := by
  obtain ⟨h', hset, -, hready, hfinds⟩ := hc.put (w := .atom s) hp hfind trivial
    (fun x hx => absurd hx (not_has_atom s x)) (fun _ _ x _ => not_has_atom s x) hpaths
  exact ⟨h', hset, view_scalar h s ▸ hready, hfinds⟩

/-- The dictionary at an owned path. -/
theorem ConfigReady.dict (hc : ConfigReady h c owned v) (hp : p ∈ owned) :
    ∃ r d, find h (.ref c) p = some (.ref r) ∧ h[r]? = some (.dict d) ∧
      ∀ k, d.get k = none ↔ v (p ++ [.key k]) = none := by
  obtain ⟨r, hr, -⟩ := hc.owned p hp
  obtain ⟨hfind, d, hd⟩ := view_eq_dict_iff.mp hr
  refine ⟨r, d, hfind, hd, fun k => ?_⟩
  rw [← hc.find_none_iff, find_key hfind, getItem_dict hd]

/-- A scalar as a default. -/
theorem ConfigReady.defaultScalar (hc : ConfigReady h c owned v) (hp : p ∈ owned)
    (hfind : find h (.ref c) p = some (.ref r)) (hpaths : ∀ q ∈ owned, ¬ p ++ [.key k] <+: q)
    (s : Scalar) :
    ∃ h' x, setdefault h (.ref r) k (.atom s) = some (h', x) ∧
      ConfigReady h' c owned (orElse v (p ++ [.key k]) (scalar s)) ∧
      ∀ q ∈ owned, find h' (.ref c) q = find h (.ref c) q := by
  obtain ⟨r', d, hfind', hd, hnone⟩ := hc.dict hp
  obtain rfl : r = r' := by simpa [hfind] using hfind'
  rcases hget : d.get k with _ | x
  · obtain ⟨h', hset, hready, hfinds⟩ := hc.putScalar hp hfind hpaths s
    refine ⟨h', _, setdefault_of_setItem hd hget hset, ?_, hfinds⟩
    rw [orElse, if_pos ((hnone k).mp hget)]
    exact hready
  · refine ⟨h, x, setdefault_found hd hget _, ?_, fun _ _ => rfl⟩
    rw [orElse, if_neg fun hv => by simp [(hnone k).mpr hv] at hget]
    exact hc

/-- The value at a key of one owned dictionary put into another one, so that both have it. -/
theorem ConfigReady.copy (hc : ConfigReady h c owned v) {s : List (Seg Scalar)} {a : Nat}
    {t : Scalar} (hp : p ∈ owned) (hfind : find h (.ref c) p = some (.ref r))
    (hfindFrom : find h (.ref c) s = some (.ref a)) (hsome : v (s ++ [.key t]) ≠ none)
    (hpaths : ∀ q ∈ owned, ¬ p ++ [.key k] <+: q)
    (hfrom : ∀ q ∈ owned, ¬ s ++ [.key t] <+: q) :
    ∃ w h', getItem h (.ref a) t = some w ∧ setItem h (.ref r) k w = some h' ∧
      ConfigReady h' c owned (v.setAt (v.under (s ++ [.key t])) (p ++ [.key k])) ∧
      ∀ q ∈ owned, find h' (.ref c) q = find h (.ref c) q := by
  have hkey := find_key (k := t) hfindFrom
  rcases hget : getItem h (.ref a) t with _ | w
  · exact absurd (hc.find_none_iff.mp (hkey.trans hget)) hsome
  have hfindW : find h (.ref c) (s ++ [.key t]) = some w := hkey.trans hget
  have hunder := under_view hfindW
  have hapart : ∀ q ∈ owned, ∀ x, find h (.ref c) q = some (.ref x) → ¬ (view h w).Has x := by
    intro q hq x hx hin
    obtain ⟨x', hx', hxs⟩ := hc.owned q hq
    obtain rfl : x = x' := by simpa [hx] using (view_eq_dict_iff.mp hx').1
    obtain ⟨q', hq'⟩ := hin
    rw [← hunder, View.ident_under] at hq'
    exact hfrom q hq ⟨q', hxs _ hq'⟩
  obtain ⟨h', hset, -, hready, hfinds⟩ := hc.put (w := w) hp hfind (hc.valid.find hc.live hfindW)
    (fun x hx => hc.fresh x (View.Has.of_under (hunder ▸ hx))) hapart hpaths
  refine ⟨w, h', rfl, hset, ?_, hfinds⟩
  have hvalue : v.under (s ++ [.key t]) = (view h w).erase := by
    rw [← hc.value, ← hunder]
    rfl
  exact hvalue ▸ hready

/-- A new empty dictionary. -/
theorem has_new {n x : Nat} (hd : h[n]? = some (.dict {})) (hx : (view h (.ref n)).Has x) :
    x = n := by
  obtain ⟨p, hp⟩ := hx
  obtain rfl := ident_of_atoms hd (by simp [Dict.values]) hp
  rw [ident_view] at hp
  simpa [find, eq_comm] using hp

/-- The config has a dictionary `auth`, which it owns. -/
structure AuthReady (h : Heap) (c : Nat) (v : Plain) (h' : Heap) (a : Nat) : Prop where
  found : find h' (.ref c) authPath = some (.ref a)
  parameters : find h' (.ref c) parametersPath = find h (.ref c) parametersPath
  ready : ConfigReady h' c [[], parametersPath, authPath] (orElse v authPath emptyDict)

theorem owned_or_auth {P : List (Seg Scalar) → Prop} (hq : ∀ q ∈ [[], parametersPath], P q)
    (hauth : P authPath) : ∀ q ∈ [[], parametersPath, authPath], P q := by
  simp only [List.mem_cons, List.not_mem_nil, or_false, forall_eq_or_imp, forall_eq] at hq ⊢
  exact ⟨hq.1, hq.2, hauth⟩

/-- A new dictionary `auth`. -/
theorem ConfigReady.newAuth (hc : ConfigReady h c [[], parametersPath] v) {n : Nat}
    {d : Dict Scalar Value} (hd : h[c]? = some (.dict d)) (hget : d.get "auth" = none)
    (hnone : v authPath = none) (hn : h[n]? = some (.dict {}))
    (hout : ¬ (view h (.ref c)).Has n) (hge : moduleHeap.length ≤ n) :
    ∃ h', setdefault h (.ref c) "auth" (.ref n) = some (h', .ref n) ∧ AuthReady h c v h' n := by
  have hapart : ∀ q ∈ [[], parametersPath], ∀ x, find h (.ref c) q = some (.ref x) →
      ¬ (view h (.ref n)).Has x := by
    intro q _ x hx hin
    obtain rfl := has_new hn hin
    exact hout ⟨q, ident_view.mpr hx⟩
  obtain ⟨h', hset, hview, hready, hfinds⟩ := hc.put (w := .ref n) (k := .str "auth") (p := [])
    (by simp) rfl (List.getElem?_eq_some_iff.mp hn).1 (fun x hx => has_new hn hx ▸ hge) hapart
    (by simp [parametersPath])
  have hat := (congrFun hview authPath).trans (View.setAt_append _ _ authPath [])
  rw [view_dict_nil hn] at hat
  refine ⟨h', setdefault_of_setItem hd hget hset, (view_eq_dict_iff.mp hat).1, hfinds _ (by simp),
    { hready with value := ?_, owned := owned_or_auth hready.owned ⟨n, hat, fun q hq => ?_⟩ }⟩
  · rw [hready.value, orElse, if_pos hnone, view_empty hn]
    rfl
  · rw [hview] at hq
    rcases View.ident_setAt hq with ⟨q', rfl, hin⟩ | ⟨-, hold⟩
    · obtain rfl := ident_of_atoms hn (by simp [Dict.values]) hin
      rfl
    · exact absurd ⟨q, hold⟩ hout

/-- The dictionary `auth` is there, or made; what is there may be something else. -/
theorem ConfigReady.auth {Q : Prop} (hc : ConfigReady h c [[], parametersPath] v)
    (hauth : ∀ r, view h (.ref c) authPath = some (.dict r) → (view h (.ref c)).Sole authPath r)
    (hQ : Q → v authPath = none ∨ v authPath = some (.dict ())) :
    ∃ h' x, setdefault (h ++ [.dict {}] : Heap) (.ref c) "auth" (.ref h.length) = some (h', x) ∧
      ((dictOf h' x = none ∧ ¬ Q) ∨ ∃ a, x = .ref a ∧ AuthReady h c v h' a) := by
  have hc₁ := hc.append (hc.valid.append (l := [.dict {}]) (by simpa using wf_empty))
  have hview := view_append hc.valid hc.live [.dict {}]
  have hfind : ∀ p, find (h ++ [.dict {}] : Heap) (.ref c) p = find h (.ref c) p := fun p =>
    find_of_view (congrFun hview p)
  have hout : ¬ (view (h ++ [.dict {}] : Heap) (.ref c)).Has h.length := fun hin => by
    have hlt := hc.valid.has_lt hc.live (hview ▸ hin)
    omega
  have hnew : (h ++ [.dict {}] : Heap)[h.length]? = some (.dict {}) := by simp
  generalize (h ++ [.dict {}] : Heap) = h₁ at *
  obtain ⟨r, d, hroot, hd, hnone⟩ := hc₁.dict (p := []) (by simp)
  obtain rfl : c = r := by simpa [find] using hroot
  rcases hget : d.get "auth" with _ | x
  · obtain ⟨h', hset, ha⟩ := hc₁.newAuth hd hget ((hnone "auth").mp hget) hnew hout
      hc.defaults.length_le
    exact ⟨h', _, hset, .inr ⟨h.length, rfl, ha.found, ha.parameters.trans (hfind _), ha.ready⟩⟩
  · refine ⟨h₁, x, setdefault_found hd hget _, ?_⟩
    have hsome : v authPath ≠ none := fun hv => by simp [(hnone "auth").mpr hv] at hget
    have hx : find h₁ (.ref c) authPath = some x := by
      have hkey := find_key (k := .str "auth") hroot
      rw [getItem_dict hd, hget] at hkey
      exact hkey
    rcases hdict : dictOf h₁ x with _ | ⟨a, e⟩
    · refine .inl ⟨rfl, fun hq => ?_⟩
      rcases hQ hq with hv | hv
      · exact hsome hv
      · rw [← hc₁.value] at hv
        obtain ⟨a, ha⟩ := dict_of_erased hv
        obtain ⟨hfindA, e, he⟩ := view_eq_dict_iff.mp ha
        obtain rfl : x = .ref a := Option.some.inj (hx.symm.trans hfindA)
        simp [dictOf, he] at hdict
    · obtain ⟨rfl, he⟩ := dictOf_eq_some_iff.mp hdict
      have hat := view_eq_dict_iff.mpr ⟨hx, e, he⟩
      have howned : Owned h₁ (.ref c) authPath := ⟨a, hat, hview ▸ hauth a (hview ▸ hat)⟩
      refine .inr ⟨a, rfl, hx, hfind _,
        { hc₁ with value := ?_, owned := owned_or_auth hc₁.owned howned }⟩
      rw [hc₁.value, orElse, if_neg hsome]

/-! ### The ssh details -/

theorem orElse_outside {w : Plain} (hq : ¬ p <+: q) : orElse v p w q = v q := by
  unfold orElse
  split
  · exact View.setAt_of_outside hq
  · rfl

theorem orElse_ne_none {w : Plain} (hw : w [] ≠ none) : orElse v p w p ≠ none := by
  unfold orElse
  split
  · have happend := View.setAt_append v w p []
    rw [List.append_nil] at happend
    rwa [happend]
  · assumption

/-- There is nothing below nothing. -/
theorem ConfigReady.none_below (hc : ConfigReady h c owned v) (hp : v p = none)
    (q : List (Seg Scalar)) : v (p ++ q) = none := by
  rw [← hc.find_none_iff] at hp ⊢
  rw [find_append, hp]
  rfl

/-- The cluster name is read from the config. -/
theorem ConfigReady.clusterName_iff (hc : ConfigReady h c owned v) {s : String} :
    clusterName v = some s ↔ find h (.ref c) [.key "cluster_name"] = some (.atom (.str s)) := by
  have hv : v [.key "cluster_name"] =
      ((find h (.ref c) [.key "cluster_name"]).map (node h)).map (Node.map fun _ => ()) := by
    rw [← hc.value]
    rfl
  constructor
  · intro hname
    rw [clusterName, hv] at hname
    split at hname
    · rename_i t ht
      obtain rfl := Option.some.inj hname
      obtain ⟨x, hx, hnode⟩ := Option.map_eq_some_iff.mp (atom_of_erased ht)
      rw [hx, node_eq_atom_iff.mp hnode]
    · cases hname
  · intro hfind
    rw [hfind] at hv
    rw [clusterName, hv]
    rfl

variable {md5 : String → String} {Q : Prop} {a : Nat}

/-- The default of the private key. -/
theorem ConfigReady.defaultKey (hc : ConfigReady h c [[], parametersPath, authPath] v)
    (hfind : find h (.ref c) authPath = some (.ref a))
    (hQ : Q → v sshPrivateKeyPath ≠ none ∨ ∃ s, clusterName v = some s) :
    Ends Q (defaultSshPrivateKey md5 (.ref c) (.ref a) h) fun h' =>
      ConfigReady h' c [[], parametersPath, authPath]
        (orElse v sshPrivateKeyPath (scalar (defaultKeyPath md5 v))) ∧
      ∀ q ∈ [[], parametersPath, authPath], find h' (.ref c) q = find h (.ref c) q := by
  obtain ⟨a', d, hfind', hd, hnone⟩ := hc.dict (p := authPath) (by simp)
  obtain rfl : a = a' := by simpa [hfind] using hfind'
  have hcontains : contains h (.ref a) (.str "ssh_private_key") =
      some (d.get "ssh_private_key").isSome := by
    simp [contains, dictOf, hd]
  have hname : getItem h (.ref c) (.str "cluster_name") = find h (.ref c) [.key "cluster_name"] :=
    (find_key (p := []) rfl).symm
  simp only [defaultSshPrivateKey, hcontains, hname, Option.bind_eq_bind, Option.bind_some]
  rcases hget : d.get "ssh_private_key" with _ | x
  · have hnoKey : v sshPrivateKeyPath = none := (hnone "ssh_private_key").mp hget
    rw [orElse, if_pos hnoKey, Option.isSome_none, if_neg Bool.false_ne_true]
    rcases hcluster : clusterName v with _ | s
    · have hnot : ¬ Q := fun hq => by
        rcases hQ hq with hkey | ⟨s, hs⟩
        · exact hkey hnoKey
        · simp [hcluster] at hs
      have hother : ∀ s, find h (.ref c) [.key "cluster_name"] ≠ some (.atom (.str s)) := by
        intro s hs
        simp [hc.clusterName_iff.mpr hs] at hcluster
      rcases hx : find h (.ref c) [.key "cluster_name"] with _ | (_ | _ | _ | _ | s) | r
      case some.atom.str => exact absurd hx (hother s)
      all_goals exact hnot
    · rw [hc.clusterName_iff.mp hcluster, Option.bind_some, defaultKeyPath, hcluster]
      obtain ⟨h', hset, hready, hfinds⟩ := hc.putScalar (k := .str "ssh_private_key") (by simp)
        hfind (by simp [parametersPath, authPath])
        (.str (TMP_PATH ++ "/" ++ getDefaultSshKeyName md5 s))
      simp only [text, hset]
      exact ⟨hready, hfinds⟩
  · have hsome : v sshPrivateKeyPath ≠ none := fun hv => by
      simp [(hnone "ssh_private_key").mpr hv] at hget
    rw [Option.isSome_some, if_pos rfl, orElse, if_neg hsome]
    exact ⟨hc, fun _ _ => rfl⟩

/-- The other defaults keep what the private key needs. -/
theorem ConfigReady.sshDefaults_accept (hc : ConfigReady h c owned v) {w : Plain}
    (hv : v sshPrivateKeyPath ≠ none ∨ ∃ s, clusterName v = some s) :
    orElse (orElse v authPath emptyDict) sshUserPath w sshPrivateKeyPath ≠ none ∨
      ∃ s, clusterName (orElse (orElse v authPath emptyDict) sshUserPath w) = some s := by
  rcases hv with hkey | ⟨s, hs⟩
  · left
    have hauth : v authPath ≠ none := fun hnone =>
      hkey (hc.none_below hnone [.key "ssh_private_key"])
    rw [orElse_outside (by simp [sshPrivateKeyPath, sshUserPath]), orElse, if_neg hauth]
    exact hkey
  · right
    refine ⟨s, ?_⟩
    rw [clusterName, orElse_outside (by simp [sshUserPath]),
      orElse_outside (by simp [authPath])]
    exact hs

/-- **The ssh details** of the config and of the provider. -/
theorem applySshDefaults_ends {pp : Nat} (hc : ConfigReady h c [[], parametersPath] v)
    (hfind : find h (.ref c) parametersPath = some (.ref pp))
    (hauth : ∀ r, view h (.ref c) authPath = some (.dict r) → (view h (.ref c)).Sole authPath r)
    (hQ : Q → (v authPath = none ∨ v authPath = some (.dict ())) ∧
      (v sshPrivateKeyPath ≠ none ∨ ∃ s, clusterName v = some s)) :
    Ends Q (applySshDefaults md5 (.ref c) (.ref pp) h) fun h' =>
      ConfigReady h' c [[], parametersPath, authPath] (withSsh md5 v) := by
  obtain ⟨h₁, x, hset, hcase⟩ := hc.auth hauth fun hq => (hQ hq).1
  simp only [applySshDefaults, alloc, hset, Option.bind_eq_bind, Option.bind_some]
  rcases hcase with ⟨hnone, hnot⟩ | ⟨a, rfl, ⟨hfindA, hparams, hc₁⟩⟩
  · have huser : setdefault h₁ x (.str "ssh_user") (text "root") = none := by
      simp [setdefault, hnone]
    rw [huser]
    exact hnot
  obtain ⟨h₂, x, huser, hc₂, hfinds₂⟩ := hc₁.defaultScalar (k := .str "ssh_user") (by simp) hfindA
    (by simp [parametersPath, authPath]) "root"
  simp only [text, huser, Option.bind_some]
  refine Ends.bind (hc₂.defaultKey ((hfinds₂ _ (by simp)).trans hfindA) fun hq => ?_)
    fun h₃ hkey => ?_
  · exact hc.sshDefaults_accept (hQ hq).2
  obtain ⟨hc₃, hfinds₃⟩ := hkey
  have hfindA₃ : find h₃ (.ref c) authPath = some (.ref a) :=
    (hfinds₃ _ (by simp)).trans ((hfinds₂ _ (by simp)).trans hfindA)
  have hfindPp : find h₃ (.ref c) parametersPath = some (.ref pp) :=
    (hfinds₃ _ (by simp)).trans ((hfinds₂ _ (by simp)).trans (hparams.trans hfind))
  obtain ⟨key, h₄, hget, hset, hc₄, hfinds₄⟩ := hc₃.copy (k := .str "ssh_private_key")
    (t := .str "ssh_private_key") (by simp) hfindPp hfindA₃ (orElse_ne_none (by simp [scalar]))
    (by simp [parametersPath, authPath]) (by simp [parametersPath, authPath])
  simp only [hget, hset, Option.bind_some]
  have huserSome : ((withSshDefaults md5 v).setAt ((withSshDefaults md5 v).under sshPrivateKeyPath)
      (parametersPath ++ [.key "ssh_private_key"])) sshUserPath ≠ none := by
    rw [View.setAt_of_outside (by simp [parametersPath, sshUserPath]), withSshDefaults,
      orElse_outside (by simp [sshPrivateKeyPath, sshUserPath])]
    exact orElse_ne_none (by simp [scalar])
  obtain ⟨user, h₅, hget, hset, hc₅, -⟩ := hc₄.copy (k := .str "ssh_user")
    (t := .str "ssh_user") (p := parametersPath) (s := authPath) (by simp)
    ((hfinds₄ _ (by simp)).trans hfindPp) ((hfinds₄ _ (by simp)).trans hfindA₃) huserSome
    (by simp [parametersPath, authPath]) (by simp [parametersPath, authPath])
  simp only [hget, hset, Option.bind_some]
  exact hc₅

end ConfigDefaults
