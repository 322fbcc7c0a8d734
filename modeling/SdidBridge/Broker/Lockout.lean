import Mathlib.Data.List.Find
import SdidBridge.Broker.Footprint
import SdidBridge.Broker.Denylist

/-!
# The lockout of logins

Failed logins are counted under the id of the binding as the request spells it, by the endpoint that
checks the signature; the count is looked at by the endpoint that issues the challenge. What the lockout
is for is said without the spelling (`lockouts`): failures are counted under the binding. The two are the
same in every run in which the requests spell each binding in one way (`lockouts_eq_counters`).

A count that was looked at can be overtaken: by the challenge that is issued after it, and by the login
that uses this challenge. In every run in which no failure reaches the limit between the look and either
of them, the lockout is effective (`lockout_effective`).
-/

namespace SdidBridge

open Concurrent Machine Prog

/-! ## What the lockout is for -/

/-- A command of the counters under another key. -/
def CounterOp.rekey (f : String → String) : CounterOp → CounterOp
  | .incr key => .incr (f key)
  | .expire key seconds => .expire (f key) seconds
  | .get key => .get (f key)
  | .del key => .del (f key)

/-- The key of the binding whose failed logins a key counts. -/
def canonicalKey (key : String) : String :=
  if countsLogins key then
    match Uuid.ofText (String.ofList (key.toList.drop 14)) with
    | some b => loginFailuresKey b.text
    | none => key
  else key

/-- The counters of a run when failed logins are counted under their binding, however it is spelled. -/
def lockouts : Run → List (Timed ℕ)
  | [] => []
  | e :: l =>
    match e.event with
    | .act _ ⟨.counter o, some _⟩ =>
      (CounterOp.exec e.before.now (lockouts l) (o.rekey canonicalKey)).2
    | _ => lockouts l

/-- After a run, at a time, the entry of a binding has not expired and counts as many failures as lock a
login out. -/
def lockedOut (tr : Run) (now : Time) (b : Uuid) : Bool :=
  (lookup now (loginFailuresKey b.text) (lockouts tr)).any (LOGIN_MAX_FAILURES ≤ ·)

/-- The entry issues a login challenge for a binding. -/
def issuesLogin (b : Uuid) (e : Step) : Bool :=
  match e.event with
  | .act _ ⟨.challenge (.set _ record _), _⟩ =>
    record.purpose == purposeString .login && Uuid.ofText record.bindingId == some b
  | _ => false

/-- The entry accepts a login of a binding: its failures are forgotten, or its session is signed. -/
def acceptsLogin (b : Uuid) (e : Step) : Bool :=
  match e.event with
  | .act _ ⟨.counter (.del key), _⟩ => canonicalKey key == loginFailuresKey b.text
  | .act _ ⟨.jwt (.sign claims _ _), _⟩ => claims.binding_id == some b.text
  | _ => false

/-- While a binding is locked out, no login challenge is issued for it and no login of it is accepted. -/
def LockoutEffective (tr : Run) : Prop :=
  ∀ l₁ e l₂ b, tr = l₁ ++ e :: l₂ → lockedOut l₂ e.before.now b = true →
    issuesLogin b e = false ∧ acceptsLogin b e = false

/-! ## The paths of the two endpoints -/

/-- The call has looked at the failures of a binding, and they were below the limit. -/
def CheckedOn (h : Path) (bindingId : String) : Prop :=
  ∃ n, (⟨.counter (.get (loginFailuresKey bindingId)), some n⟩ : Cmd) ∈ h ∧
    n.any (LOGIN_MAX_FAILURES ≤ ·) = false

/-- The call has consumed a login challenge of a binding. -/
def ProvesOn (h : Path) (bindingId : String) : Prop :=
  ∃ k record, (⟨.challenge (.getdel k), some (some record)⟩ : Cmd) ∈ h ∧
    record.purpose = purposeString .login ∧ record.bindingId = bindingId

/-- What precedes a login challenge, and what an accepted login. -/
def LoginOnPath (q : Request) (h : Path) : Op → Prop
  | .challenge (.set _ record _) => record.purpose = purposeString .login →
      q = .loginChallenge record.bindingId ∧ CheckedOn h record.bindingId
  | .counter (.del key) => countsLogins key = true →
      ∃ body, q = .login body ∧ key = loginFailuresKey body.bindingId ∧ ProvesOn h body.bindingId
  | .jwt (.sign claims _ _) => claims.binding_id ≠ none →
      ∃ body b, q = .login body ∧ ReadsBinding h body.bindingId b ∧ claims.binding_id = some b.id.text ∧
        ProvesOn h body.bindingId
  | _ => True

section Paths

variable {α : Type} {D : Deployment} {q : Request} {h h' : Path}

theorem CheckedOn.mono {bindingId : String} (hs : h <:+ h') (hc : CheckedOn h bindingId) :
    CheckedOn h' bindingId := by
  obtain ⟨n, hn, hlow⟩ := hc
  exact ⟨n, hs.mem hn, hlow⟩

theorem ProvesOn.mono {bindingId : String} (hs : h <:+ h') (hp : ProvesOn h bindingId) :
    ProvesOn h' bindingId := by
  obtain ⟨k, record, hk, hrecord⟩ := hp
  exact ⟨k, record, hs.mem hk, hrecord⟩

theorem Op.common_loginOnPath {o : Op} (ho : o.common = true) (h : Path) : LoginOnPath q h o := by
  unfold LoginOnPath
  split <;> simp_all [Op.common, CounterOp.key]

theorem CommonOnly.yields_login {p : H α} (hp : CommonOnly p) :
    Yields (LoginOnPath q) h p fun _ h' => h <:+ h' :=
  hp.yields fun _ _ ho => Op.common_loginOnPath ho _

theorem yields_issueLoginChallenge (bindingId : String) :
    Yields (LoginOnPath (.loginChallenge bindingId)) [] (issueLoginChallenge D bindingId)
      fun _ _ => True := by
  simp only [issueLoginChallenge, yields_bind, yields_throwIf, assertActive]
  intro _
  refine (common_loadBinding bindingId).yields_login.mono fun binding h₁ _ _ => ?_
  simp only [assertNotLockedOut, yields_bind, yields_await, yields_throwIf]
  refine ⟨trivial, fun n hlow => ?_⟩
  have hchecked : CheckedOn (⟨.counter (.get (loginFailuresKey bindingId)), some n⟩ :: h₁) bindingId :=
    ⟨n, List.mem_cons_self, by simpa using hlow⟩
  simp only [issue, yields_bind, yields_randomBytes, yields_await, yields_newDate, yields_pure,
    yields_auditAppend]
  refine ⟨trivial, fun challengeId => ⟨trivial, fun nonce => ⟨fun _ => ⟨rfl, ?_⟩, fun _ => ?_⟩⟩⟩
  · exact hchecked.mono ((List.suffix_cons _ _).trans (List.suffix_cons _ _))
  · exact ⟨trivial, fun _ => ⟨trivial, trivial⟩⟩

/-- A login is proved with a challenge that it consumes. -/
theorem yields_proveLogin (body : LoginRequest) (binding : DeviceBinding) :
    Yields (LoginOnPath (.login body)) h (proveLogin body binding)
      fun _ h' => h <:+ h' ∧ ProvesOn h' body.bindingId := by
  refine yields_recover ?_ fun err h' => ?_
  · simp only [consume, yields_bind, yields_await, yields_orThrow, yields_throwIf, yields_pure, not_or, not_not]
    refine ⟨trivial, ?_⟩
    rintro raw record rfl ⟨hpurpose, hbinding⟩
    refine (common_verifyDeviceSignature _ _ _).yields_login.mono fun _ h₁ hs₁ => ⟨?_, ?_⟩
    · exact (List.suffix_cons _ _).trans hs₁
    · exact ⟨body.challengeId, record, hs₁.mem List.mem_cons_self, hpurpose, hbinding⟩
  · -- The failure is recorded, and the error is thrown again.
    simp only [recordFailure, yields_bind, yields_await, yields_onlyIf, yields_auditAppend, yields_throwing]
    simp [LoginOnPath]

theorem yields_login (body : LoginRequest) :
    Yields (LoginOnPath (.login body)) [] (login D body) fun _ _ => True := by
  simp only [login, yields_bind, yields_throwIf, assertActive, loadBinding, yields_await, yields_orThrow]
  refine fun _ => ⟨trivial, ?_⟩
  rintro row binding rfl _
  refine (yields_proveLogin body binding).mono fun _ h₁ ⟨hs₁, hproves⟩ => ?_
  simp only [clearFailures, yields_await]
  refine ⟨fun _ => ⟨body, rfl, rfl, hproves⟩, fun _ => ?_⟩
  have hread : ReadsBinding h₁ body.bindingId binding := hs₁.mem List.mem_cons_self
  -- Re-verification neither accepts a login nor issues a challenge.
  have hdue : ∀ h', Yields (LoginOnPath (.login body)) h'
      (reassertIfDue D binding.citizenId.text binding false "direct-login") fun _ h'' => h' <:+ h'' := by
    intro h'
    refine Only.yields (reverifying_reassertIfDue _ _ _ _ _) (J := fun h'' => h' <:+ h'') (fun h'' o hs ho => ?_)
      List.suffix_rfl
    refine ⟨?_, fun _ => hs.trans (List.suffix_cons _ _)⟩
    unfold LoginOnPath
    split <;> simp_all [Op.reverifying]
  refine (hdue _).mono fun _ h₂ hs₂ => ?_
  have hs : h₁ <:+ h₂ := (List.suffix_cons _ _).trans hs₂
  simp only [yields_newDate, yields_auditAppend, yields_pure]
  refine ⟨trivial, fun now => ⟨trivial, fun _ => ⟨trivial, fun _ => ?_, fun _ => trivial⟩⟩⟩
  refine ⟨body, binding, rfl, ?_, rfl, hproves.mono ?_⟩
  · exact List.mem_cons_of_mem _ (List.mem_cons_of_mem _ (List.mem_cons_of_mem _ (hs.mem hread)))
  · exact ((hs.trans (List.suffix_cons _ _)).trans (List.suffix_cons _ _)).trans (List.suffix_cons _ _)

/-- A request that does not log in neither issues a login challenge nor accepts a login. -/
theorem loginOnPath_of_issues {o : Op} (hspelling : q.loginSpelling = none) (hissues : q.issues o)
    (hsign : ∀ claims aud ttl, o = .jwt (.sign claims aud ttl) → claims.binding_id = none) :
    LoginOnPath q h o := by
  unfold LoginOnPath
  split
  · intro hlogin
    obtain ⟨bindingId, rfl⟩ := hissues.1 hlogin
    simp [Request.loginSpelling] at hspelling
  · intro hcounts
    obtain ⟨bindingId, hspelled, -⟩ := hissues hcounts
    rw [hspelling] at hspelled
    simp at hspelled
  · intro hne
    exact absurd (hsign _ _ _ rfl) hne
  · trivial

/-- What precedes a login challenge and an accepted login, on the paths of every request. -/
theorem along_logins (D : Deployment) (q : Request) :
    Along (LoginOnPath q) (fun _ _ => True) [] ((broker D).handler q) := by
  by_cases hspelling : q.loginSpelling = none
  · refine ((paths D q).and (footprint D q [])).mono (fun h o ⟨hpath, hissues⟩ => ?_) fun _ _ _ => trivial
    refine loginOnPath_of_issues hspelling hissues fun claims aud ttl ho => ?_
    subst ho
    by_contra hbinding
    obtain ⟨body, -, rfl, -⟩ := SignsOn.session hpath.1 hbinding
    simp [Request.loginSpelling] at hspelling
  · unfold Request.loginSpelling at hspelling
    split at hspelling
    · exact Along.mono (yields_issueLoginChallenge _).reply (fun _ _ hΦ => hΦ) fun _ _ _ => trivial
    · exact Along.mono (yields_login _).reply (fun _ _ hΦ => hΦ) fun _ _ _ => trivial
    · simp at hspelling

end Paths

/-! ## Counters under other keys -/

section Rekey

variable {α : Type} {f : String → String} {now : Time} {k : String} {es : List (Timed α)}

/-- An entry under another key. -/
def Timed.rekey (f : String → String) (e : Timed α) : Timed α := { e with key := f e.key }

/-- No other key of the entries is renamed to what `k` is renamed to. -/
def Apart (f : String → String) (es : List (Timed α)) (k : String) : Prop :=
  ∀ e ∈ es, f e.key = f k → e.key = k

theorem Apart.beq (hf : Apart f es k) {e : Timed α} (he : e ∈ es) : (f e.key == f k) = (e.key == k) := by
  rw [Bool.eq_iff_iff, beq_iff_eq, beq_iff_eq]
  exact ⟨hf e he, congrArg f⟩

/-- The live entry under a key is found under the new key. -/
theorem find_rekey (hf : Apart f es k) :
    (es.map (Timed.rekey f)).find? (fun e => e.key == f k && e.expiresAt.all (now < ·)) =
      (es.find? fun e => e.key == k && e.expiresAt.all (now < ·)).map (Timed.rekey f) := by
  rw [List.find?_map]
  congr 1
  refine List.find?_congr fun e he => ?_
  simp only [Function.comp_apply, Timed.rekey, hf.beq he]

theorem lookup_rekey (hf : Apart f es k) : lookup now (f k) (es.map (Timed.rekey f)) = lookup now k es := by
  unfold lookup
  rw [find_rekey hf, Option.map_map]
  rfl

theorem expiryOf_rekey (hf : Apart f es k) :
    expiryOf now (f k) (es.map (Timed.rekey f)) = expiryOf now k es := by
  unfold expiryOf
  rw [find_rekey hf, Option.bind_map]
  rfl

theorem without_rekey (hf : Apart f es k) :
    without (f k) (es.map (Timed.rekey f)) = (without k es).map (Timed.rekey f) := by
  unfold without
  rw [List.filter_map]
  congr 1
  refine List.filter_congr fun e he => ?_
  simp only [Function.comp_apply, Timed.rekey, bne, hf.beq he]

end Rekey

/-- A command of the counters does the same under other keys. -/
theorem CounterOp.exec_rekey {f : String → String} {now : Time} {es : List (Timed ℕ)} {o : CounterOp}
    (hf : Apart f es o.key) :
    (exec now (es.map (Timed.rekey f)) (o.rekey f)).2 = (exec now es o).2.map (Timed.rekey f) := by
  cases o with
  | incr key =>
    have hf' : Apart f es key := hf
    simp only [CounterOp.rekey, exec, lookup_rekey hf', expiryOf_rekey hf', without_rekey hf']
    rfl
  | expire key seconds =>
    have hf' : Apart f es key := hf
    simp only [CounterOp.rekey, exec, lookup_rekey hf', without_rekey hf']
    cases lookup now key es with
    | none => rfl
    | some n => rfl
  | get key => rfl
  | del key => exact without_rekey hf

/-! ## Failures under their bindings -/

variable {D : Deployment} {tr l₁ l₂ : Run} {c : State} {s s' : Store} {t : ℕ}

theorem loginFailuresKey_injective : Function.Injective loginFailuresKey := by
  intro x y h
  simpa [loginFailuresKey] using h

/-- The key of a binding, however the request spells it. -/
theorem canonicalKey_loginFailuresKey (x : String) :
    canonicalKey (loginFailuresKey x) =
      match Uuid.ofText x with
      | some b => loginFailuresKey b.text
      | none => loginFailuresKey x := by
  have hdrop : String.ofList ((loginFailuresKey x).toList.drop 14) = x := by simp [loginFailuresKey]
  unfold canonicalKey
  rw [if_pos (countsLogins_loginFailuresKey x), hdrop]

theorem canonicalKey_of_text {x : String} {b : Uuid} (hx : Uuid.ofText x = some b) :
    canonicalKey (loginFailuresKey x) = loginFailuresKey b.text := by
  rw [canonicalKey_loginFailuresKey, hx]

/-- A key of a binding spells it. -/
theorem ofText_of_canonicalKey {x : String} {b : Uuid}
    (h : canonicalKey (loginFailuresKey x) = loginFailuresKey b.text) : Uuid.ofText x = some b := by
  rw [canonicalKey_loginFailuresKey] at h
  cases hx : Uuid.ofText x with
  | some b' =>
    rw [hx] at h
    rw [Uuid.text_injective (loginFailuresKey_injective h)]
  | none =>
    rw [hx] at h
    have htext : x = b.text := loginFailuresKey_injective h
    simp [htext] at hx

theorem countsLogins_canonicalKey (key : String) : countsLogins (canonicalKey key) = countsLogins key := by
  unfold canonicalKey
  split_ifs with hcounts
  · split
    · rw [hcounts, countsLogins_loginFailuresKey]
    · rfl
  · rfl

/-- The requests spell each binding in one way. -/
def SpeltAlike (tr : Run) : Prop :=
  ∀ t q x t' q' x' b, Arrived tr t q → q.loginSpelling = some x → Arrived tr t' q' →
    q'.loginSpelling = some x' → Uuid.ofText x = some b → Uuid.ofText x' = some b → x = x'

theorem SpeltAlike.mono {l l' : Run} (h : SpeltAlike l') (hl : l ⊆ l') : SpeltAlike l := by
  intro t q x t' q' x' b ha hx ha' hx'
  exact h t q x t' q' x' b (ha.mono hl) hx (ha'.mono hl) hx'

/-- A key that counts logins is that of a request. -/
def KeyOf (tr : Run) (key : String) : Prop :=
  countsLogins key = true → ∃ t q x, Arrived tr t q ∧ q.loginSpelling = some x ∧ key = loginFailuresKey x

/-- Keys of one binding are one key, when the requests spell each binding in one way. -/
theorem eq_of_canonicalKey (hspelt : SpeltAlike tr) {key key' : String} (hkey : KeyOf tr key)
    (hkey' : KeyOf tr key') (h : canonicalKey key = canonicalKey key') : key = key' := by
  have hcounts : countsLogins key = countsLogins key' := by
    rw [← countsLogins_canonicalKey key, h, countsLogins_canonicalKey]
  cases hk : countsLogins key with
  | false =>
    have hk' : countsLogins key' = false := by rw [← hcounts, hk]
    have hsame : ∀ {k : String}, countsLogins k = false → canonicalKey k = k := by
      intro k hk
      unfold canonicalKey
      rw [if_neg (by simp [hk])]
    rwa [hsame hk, hsame hk'] at h
  | true =>
    obtain ⟨t, q, x, ha, hx, rfl⟩ := hkey hk
    obtain ⟨t', q', x', ha', hx', rfl⟩ := hkey' (by rw [← hcounts, hk])
    rw [canonicalKey_loginFailuresKey, canonicalKey_loginFailuresKey] at h
    cases hb : Uuid.ofText x with
    | none =>
      rw [hb] at h
      cases hb' : Uuid.ofText x' with
      | none => rwa [hb'] at h
      | some b' =>
        -- A text that is no uuid is not what one is printed as.
        rw [hb'] at h
        have htext : x = b'.text := loginFailuresKey_injective h
        simp [htext] at hb
    | some b =>
      rw [hb] at h
      cases hb' : Uuid.ofText x' with
      | none =>
        rw [hb'] at h
        have htext : b.text = x' := loginFailuresKey_injective h
        simp [← htext] at hb'
      | some b' =>
        rw [hb'] at h
        obtain rfl := Uuid.text_injective (loginFailuresKey_injective h)
        rw [hspelt t q x t' q' x' b ha hx ha' hx' hb hb']

/-- A command of the counters names a key of a request. -/
theorem keyOf_of_act {o : CounterOp} {r : Option o.Res}
    (hr : (broker D).Reach (l₁ ++ ⟨s, .act t ⟨.counter o, r⟩⟩ :: l₂) c) : KeyOf l₂ o.key := by
  intro hcounts
  obtain ⟨q, harrived, hissues⟩ := issues_of_act hr
  obtain ⟨x, hx, hkey⟩ := hissues hcounts
  exact ⟨t, q, x, harrived, hx, hkey⟩

theorem KeyOf.mono {l l' : Run} {key : String} (h : KeyOf l key) (hl : l ⊆ l') : KeyOf l' key := by
  intro hcounts
  obtain ⟨t, q, x, ha, hx, hkey⟩ := h hcounts
  exact ⟨t, q, x, ha.mono hl, hx, hkey⟩

/-- What a command does to the counters. -/
theorem leads_counter {o : CounterOp} {r : Option o.Res} (hl : (broker D).Leads ⟨s, .act t ⟨.counter o, r⟩⟩ s') :
    (r = none ∧ s' = s) ∨ (o.exec s.now s.counters = (r, s'.counters) ∧ r.isSome = true) := by
  rcases hl with ⟨i, hx⟩ | ⟨hnone, -, rfl⟩
  · simp only [broker, Op.exec, Option.some.injEq, Prod.mk.injEq] at hx
    obtain ⟨rfl, rfl⟩ := hx
    refine .inr ⟨rfl, ?_⟩
    cases o with
    | expire key seconds =>
      simp only [CounterOp.exec]
      split <;> rfl
    | _ => rfl
  · exact .inl ⟨hnone, rfl⟩

/-- The counters. -/
def counters (D : Deployment) : Object (broker D) CounterOp CounterOp.Res (List (Timed ℕ)) :=
  part D (·.counters) (fun a => ⟨.counter a.op, a.res⟩)
    (fun | ⟨.counter o, r⟩ => some ⟨o, r⟩ | _ => none)
    fun s a s' => ∃ now, a.op.exec now s = (a.res, s')

/-- What a command leaves of the counters. -/
theorem CounterOp.exec_entries (now : Time) (es : List (Timed ℕ)) (o : CounterOp) :
    (o.exec now es).2 = es ∨ (o.exec now es).2 = without o.key es ∨
      ∃ n x, (o.exec now es).2 = ⟨o.key, n, x⟩ :: without o.key es := by
  cases o with
  | incr key => exact .inr (.inr ⟨_, _, rfl⟩)
  | expire key seconds =>
    simp only [exec]
    cases lookup now key es with
    | none => exact .inl rfl
    | some n => exact .inr (.inr ⟨n, _, rfl⟩)
  | get key => exact .inl rfl
  | del key => exact .inr (.inl rfl)

/-- A command leaves different counters under different keys. -/
theorem counters_step_nodup {x x' : List (Timed ℕ)} {a : Act CounterOp CounterOp.Res}
    (hs : (counters D).Step x a x') (hn : (x.map (·.key)).Nodup) : (x'.map (·.key)).Nodup := by
  obtain ⟨o, r⟩ := a
  rcases hs with ⟨now, hexec⟩ | ⟨-, rfl⟩
  · have hx' : x' = (o.exec now x).2 := by rw [hexec]
    have hwithout : ((without o.key x).map (·.key)).Nodup := hn.sublist (List.filter_sublist.map _)
    rcases o.exec_entries now x with h | h | ⟨n, expiry, h⟩
    · rwa [hx', h]
    · rwa [hx', h]
    · rw [hx', h, List.map_cons, List.nodup_cons]
      refine ⟨?_, hwithout⟩
      simp [without]
  · exact hn

/-- No two counters have one key. -/
theorem counters_nodup (hr : (broker D).Reach tr c) : (c.store.counters.map (·.key)).Nodup :=
  (counters D).invariant (P := fun x => (x.map (·.key)).Nodup) List.nodup_nil
    (fun _ _ _ => counters_step_nodup) hr

/-- The keys of the counters are keys of requests. -/
theorem keyOf_stored (hr : (broker D).Reach tr c) : ∀ e ∈ c.store.counters, KeyOf tr e.key := by
  induction hr with
  | init => simp [broker, Store.empty]
  | @step tr c m ev c' hr hs ih =>
    have hsub : tr ⊆ (⟨c.store, ev⟩ : Step) :: tr := List.subset_cons_self _ _
    have hl := step_leads hs
    rcases (counters D).leads hl with ⟨t, ⟨o, r⟩, hev, -⟩ | ⟨-, hsame⟩
    · simp only at hev
      subst hev
      have hkey : KeyOf tr o.key := keyOf_of_act (Reach.step hr hs).newest
      rcases leads_counter hl with ⟨-, hsame⟩ | ⟨hexec, -⟩
      · rw [hsame]
        exact fun e he => (ih e he).mono hsub
      have hnew : c'.store.counters = (o.exec c.store.now c.store.counters).2 := by rw [hexec]
      have hold : ∀ e ∈ without o.key c.store.counters, KeyOf tr e.key :=
        fun e he => ih e (List.mem_of_mem_filter he)
      intro e he
      rw [hnew] at he
      rcases o.exec_entries c.store.now c.store.counters with h | h | ⟨n, x, h⟩ <;> rw [h] at he
      · exact (ih e he).mono hsub
      · exact (hold e he).mono hsub
      · rcases List.mem_cons.mp he with rfl | he
        · exact hkey.mono hsub
        · exact (hold e he).mono hsub
    · rw [show c'.store.counters = c.store.counters from hsame]
      exact fun e he => (ih e he).mono hsub

/-- Failures counted under the binding are failures counted under its spelling, when the requests spell each
binding in one way. -/
theorem lockouts_eq_counters (hr : (broker D).Reach tr c) (hspelt : SpeltAlike tr) :
    lockouts tr = c.store.counters.map (Timed.rekey canonicalKey) := by
  induction hr with
  | init => rfl
  | @step tr c m ev c' hr hs ih =>
    have hsub : tr ⊆ (⟨c.store, ev⟩ : Step) :: tr := List.subset_cons_self _ _
    have ih := ih (hspelt.mono hsub)
    have hl := step_leads hs
    rcases (counters D).leads hl with ⟨t, ⟨o, r⟩, hev, -⟩ | ⟨hno, hsame⟩
    · replace hev : ev = .act t ⟨.counter o, r⟩ := hev
      subst hev
      rcases leads_counter hl with ⟨hnone, hsame⟩ | ⟨hexec, hanswered⟩
      · subst hnone
        rw [hsame]
        exact ih
      obtain ⟨v, rfl⟩ := Option.isSome_iff_exists.mp hanswered
      have hapart : Apart canonicalKey c.store.counters o.key := by
        intro e he heq
        have hkey : KeyOf tr o.key := keyOf_of_act (Reach.step hr hs).newest
        exact eq_of_canonicalKey (hspelt.mono hsub) (keyOf_stored hr e he) hkey heq
      calc lockouts (⟨c.store, .act t ⟨.counter o, some v⟩⟩ :: tr)
          = (CounterOp.exec c.store.now (lockouts tr) (o.rekey canonicalKey)).2 := rfl
        _ = (o.exec c.store.now c.store.counters).2.map (Timed.rekey canonicalKey) := by
          rw [ih, CounterOp.exec_rekey hapart]
        _ = c'.store.counters.map (Timed.rekey canonicalKey) := by rw [hexec]
    · have hother : lockouts (⟨c.store, ev⟩ :: tr) = lockouts tr := by
        rw [lockouts]
        split
        · rename_i t o v hev
          simpa [counters, part] using hno t _ hev
        · rfl
      rw [hother, ih, show c'.store.counters = c.store.counters from hsame]

/-! ## Failures below the limit -/

/-- The live count under a key is below the limit. -/
def BelowLimit (s : Store) (key : String) : Prop :=
  ∀ n, lookup s.now key s.counters = some n → n < LOGIN_MAX_FAILURES

/-- What is live later was live before. -/
theorem lookup_earlier {α : Type} {now now' : Time} {k : String} {es : List (Timed α)} {v : α}
    (hn : (es.map (·.key)).Nodup) (hle : now ≤ now') (h : lookup now' k es = some v) :
    lookup now k es = some v := by
  obtain ⟨e, hfind, rfl⟩ := Option.map_eq_some_iff.mp h
  have he := List.mem_of_find?_eq_some hfind
  have hlive := List.find?_some hfind
  simp only [Bool.and_eq_true, beq_iff_eq] at hlive
  obtain ⟨hkey, hlater⟩ := hlive
  have hnow : e.expiresAt.all (now < ·) = true := by
    cases hx : e.expiresAt with
    | none => rfl
    | some x =>
      rw [hx] at hlater
      have hlt : now' < x := by simpa using hlater
      simpa using lt_of_le_of_lt hle hlt
  -- The entry that is found is the only one under its key.
  cases hfound : es.find? fun e => e.key == k && e.expiresAt.all (now < ·) with
  | none =>
    have hnot := List.find?_eq_none.mp hfound e he
    simp [hkey, hnow] at hnot
  | some e' =>
    have hkey' := List.find?_some hfound
    simp only [Bool.and_eq_true, beq_iff_eq] at hkey'
    have hsame : e' = e := List.inj_on_of_nodup_map hn (List.mem_of_find?_eq_some hfound) he
      (hkey'.1.trans hkey.symm)
    rw [lookup, hfound, hsame]
    rfl

theorem lookup_without_self {α : Type} {now : Time} {k : String} {es : List (Timed α)} :
    lookup now k (without k es) = none := by
  unfold lookup without
  rw [Option.map_eq_none_iff, List.find?_eq_none]
  intro e he
  have hne := (List.mem_filter.mp he).2
  simp_all

theorem lookup_without_ne {α : Type} {now : Time} {k k' : String} {es : List (Timed α)} (hk : k ≠ k') :
    lookup now k (without k' es) = lookup now k es := by
  unfold lookup without
  rw [List.find?_filter]
  congr 1
  refine List.find?_congr fun e _ => ?_
  by_cases he : e.key = k
  · simp [he, hk]
  · simp [he]

/-- What is found under a key that has been written. -/
theorem lookup_written {α : Type} {now : Time} {k : String} {v w : α} {x : Option Time} {es : List (Timed α)}
    (h : lookup now k (⟨k, v, x⟩ :: without k es) = some w) : w = v := by
  unfold lookup at h
  rw [List.find?_cons] at h
  split at h
  · simpa using h.symm
  · have hnone : lookup now k (without k es) = none := lookup_without_self
    unfold lookup at hnone
    rw [hnone] at h
    simp at h

/-- A count stays below the limit until a failure reaches it. -/
theorem BelowLimit.step {key : String} {e : Step} (hn : (e.before.counters.map (·.key)).Nodup)
    (hl : (broker D).Leads e s') (h : BelowLimit e.before key)
    (hincr : ∀ t n, e.event = .act t ⟨.counter (.incr key), some n⟩ → n < LOGIN_MAX_FAILURES) :
    BelowLimit s' key := by
  have hnow : e.before.now ≤ s'.now := leads_now hl
  rcases (counters D).leads hl with ⟨t, ⟨o, r⟩, hev, -⟩ | ⟨-, hsame⟩
  swap
  · intro n hfound
    rw [show s'.counters = e.before.counters from hsame] at hfound
    exact h n (lookup_earlier hn hnow hfound)
  obtain ⟨s, ev⟩ := e
  replace hev : ev = .act t ⟨.counter o, r⟩ := hev
  subst hev
  rcases leads_counter hl with ⟨-, rfl⟩ | ⟨hexec, -⟩
  · exact h
  have hclock : s'.now = s.now := leads_act_now hl
  intro n hfound
  rw [hclock] at hfound
  cases o with
  | incr k =>
    simp only [CounterOp.exec, Prod.mk.injEq] at hexec
    obtain ⟨rfl, hcounters⟩ := hexec
    rw [← hcounters] at hfound
    by_cases hk : key = k
    · subst hk
      rw [lookup_written hfound]
      exact hincr t _ rfl
    · rw [lookup_set hk] at hfound
      exact h n hfound
  | expire k seconds =>
    simp only [CounterOp.exec] at hexec
    split at hexec
    · rename_i m hm
      simp only [Prod.mk.injEq] at hexec
      rw [← hexec.2] at hfound
      by_cases hk : key = k
      · -- The count is the one that was found before.
        subst hk
        rw [lookup_written hfound]
        exact h m hm
      · rw [lookup_set hk] at hfound
        exact h n hfound
    · simp only [Prod.mk.injEq] at hexec
      rw [← hexec.2] at hfound
      exact h n hfound
  | get k =>
    simp only [CounterOp.exec, Prod.mk.injEq] at hexec
    rw [← hexec.2] at hfound
    exact h n hfound
  | del k =>
    simp only [CounterOp.exec, Prod.mk.injEq] at hexec
    rw [← hexec.2] at hfound
    by_cases hk : key = k
    · subst hk
      rw [lookup_without_self] at hfound
      simp at hfound
    · rw [lookup_without_ne hk] at hfound
      exact h n hfound

/-- A count that was looked at and was below the limit still is, if no failure has reached the limit since. -/
theorem belowLimit_since_check {key : String} {n : Option ℕ} {u : ℕ}
    (hr : (broker D).Reach (l₁ ++ ⟨s, .act u ⟨.counter (.get key), some n⟩⟩ :: l₂) c)
    (hlow : n.any (LOGIN_MAX_FAILURES ≤ ·) = false)
    (hno : ∀ e ∈ l₁, ∀ t m, e.event = .act t ⟨.counter (.incr key), some m⟩ → m < LOGIN_MAX_FAILURES) :
    BelowLimit c.store key := by
  refine hr.since (P := fun s => BelowLimit s key) ?_ ?_
  · intro s' hl m hfound
    rcases leads_counter hl with ⟨hnone, -⟩ | ⟨hexec, -⟩
    · simp at hnone
    · have hclock : s'.now = s.now := leads_act_now hl
      simp only [CounterOp.exec, Prod.mk.injEq, Option.some.injEq] at hexec
      obtain ⟨rfl, hcounters⟩ := hexec
      rw [← hcounters, hclock] at hfound
      rw [hfound] at hlow
      simpa using hlow
  · intro e he s' hl h
    obtain ⟨m₁, m₂, rfl⟩ := List.append_of_mem he
    rw [List.append_assoc, List.cons_append] at hr
    obtain ⟨c₀, m, c₁, hr₀, hb, -⟩ := hr.entry
    have hn : (e.before.counters.map (·.key)).Nodup := by
      rw [← hb]
      exact counters_nodup hr₀
    exact h.step hn hl (hno e he)

/-! ## The lockout is effective -/

/-- The entry records a failed login of a binding, and reaches the limit with it. -/
def reachesLimit (b : Uuid) (e : Step) : Bool :=
  match e.event with
  | .act _ ⟨.counter (.incr key), some n⟩ =>
    canonicalKey key == loginFailuresKey b.text && decide (LOGIN_MAX_FAILURES ≤ n)
  | _ => false

/-- Call `t` goes by what call `u` looked at: the two are one call, or `t` consumed the challenge that `u`
issued. -/
def GoesBy (tr : Run) (t u : ℕ) : Prop :=
  t = u ∨ ∃ k record ttl, Did tr u ⟨.challenge (.set k record ttl), some ()⟩ ∧
    Did tr t ⟨.challenge (.getdel k), some (some record)⟩

/-- When a login challenge is issued or a login is accepted, no failure has reached the limit since the
failures were looked at. -/
def ChecksStand (tr : Run) : Prop :=
  ∀ b l₁ s t a l₂, tr = l₁ ++ ⟨s, .act t a⟩ :: l₂ →
    (issuesLogin b ⟨s, .act t a⟩ = true ∨ acceptsLogin b ⟨s, .act t a⟩ = true) → ∀ u, GoesBy l₂ t u →
      ∀ m₁ s' x n m₂, l₂ = m₁ ++ ⟨s', .act u ⟨.counter (.get (loginFailuresKey x)), some n⟩⟩ :: m₂ →
        Uuid.ofText x = some b → ∀ e ∈ m₁, reachesLimit b e = false

/-- A binding is not locked out when a check of its failures stands. -/
theorem not_lockedOut {b : Uuid} {x : String} {u : ℕ} (hr : (broker D).Reach tr c) (hspelt : SpeltAlike tr)
    (hx : Uuid.ofText x = some b) (hchecked : CheckedOn (own u tr) x)
    (hstands : ∀ m₁ s' n m₂, tr = m₁ ++ ⟨s', .act u ⟨.counter (.get (loginFailuresKey x)), some n⟩⟩ :: m₂ →
      ∀ e ∈ m₁, reachesLimit b e = false) :
    lockedOut tr c.store.now b = false := by
  obtain ⟨n, hget, hlow⟩ := hchecked
  obtain ⟨m₁, s', m₂, htr⟩ := (mem_own.mp hget).split
  have hno := hstands m₁ s' n m₂ htr
  have hbelow : BelowLimit c.store (loginFailuresKey x) := by
    subst htr
    refine belowLimit_since_check hr hlow fun e he t m hev => ?_
    have hreach := hno e he
    rw [reachesLimit, hev] at hreach
    simp only [canonicalKey_of_text hx, beq_self_eq_true, Bool.true_and, decide_eq_false_iff_not] at hreach
    exact Nat.lt_of_not_le hreach
  have hapart : Apart canonicalKey c.store.counters (loginFailuresKey x) := by
    intro e he heq
    have hkey : KeyOf tr (loginFailuresKey x) := by
      subst htr
      exact (keyOf_of_act hr).mono (older_subset _ _)
    exact eq_of_canonicalKey hspelt (keyOf_stored hr e he) hkey heq
  unfold lockedOut
  rw [lockouts_eq_counters hr hspelt, ← canonicalKey_of_text hx, lookup_rekey hapart]
  cases hfound : lookup c.store.now (loginFailuresKey x) c.store.counters with
  | none => rfl
  | some n => simpa using hbelow n hfound

/-- What precedes a command of a run, as far as logins go. -/
theorem login_onPath {a : Cmd} (hr : (broker D).Reach (l₁ ++ ⟨s, .act t a⟩ :: l₂) c) :
    ∃ q, Arrived l₂ t q ∧ LoginOnPath q (own t l₂) a.op :=
  hr.act_along (along_logins D)

/-- The failures were looked at before a login challenge was issued. -/
theorem checked_of_issued {k : String} {record : ChallengeRecord} {ttl : ℕ} {r : Option Unit}
    (hr : (broker D).Reach (l₁ ++ ⟨s, .act t ⟨.challenge (.set k record ttl), r⟩⟩ :: l₂) c)
    (hpurpose : record.purpose = purposeString .login) : CheckedOn (own t l₂) record.bindingId := by
  obtain ⟨q, -, hlogin⟩ := login_onPath hr
  exact (hlogin hpurpose).2

/-- The call that issued the challenge of a login had looked at the failures. -/
theorem checked_of_proved {x : String} (hr : (broker D).Reach tr c) (hproves : ProvesOn (own t tr) x) :
    ∃ u, GoesBy tr t u ∧ CheckedOn (own u tr) x := by
  obtain ⟨k, record, hget, hpurpose, rfl⟩ := hproves
  have hgot := mem_own.mp hget
  obtain ⟨l₁, s, l₂, rfl⟩ := hgot.split
  obtain ⟨⟨u, ttl, hset⟩, -⟩ := consumed_once hr
  obtain ⟨m₁, s', m₂, rfl⟩ := hset.split
  refine ⟨u, .inr ⟨k, record, ttl, hset.mono (older_subset _ _), hgot⟩, ?_⟩
  obtain ⟨c₀, -, -, hr₀, -, -⟩ := hr.entry
  obtain ⟨n, hn, hlow⟩ := checked_of_issued hr₀ hpurpose
  exact ⟨n, mem_own.mpr (((mem_own.mp hn).mono (older_subset m₁ m₂)).mono (older_subset l₁ _)), hlow⟩

/-- An accepted login was proved with a challenge of its binding. -/
theorem proved_of_accepted {b : Uuid} {a : Cmd} (hr : (broker D).Reach (l₁ ++ ⟨s, .act t a⟩ :: l₂) c)
    (haccepts : acceptsLogin b ⟨s, .act t a⟩ = true) :
    ∃ x, Uuid.ofText x = some b ∧ ProvesOn (own t l₂) x := by
  obtain ⟨q, -, hlogin⟩ := login_onPath hr
  unfold acceptsLogin at haccepts
  split at haccepts
  · rename_i t' key r hev
    obtain ⟨rfl, rfl⟩ := Event.act.inj hev
    have hkey : canonicalKey key = loginFailuresKey b.text := by simpa using haccepts
    have hcounts : countsLogins key = true := by
      rw [← countsLogins_canonicalKey, hkey, countsLogins_loginFailuresKey]
    obtain ⟨body, -, rfl, hproves⟩ := hlogin hcounts
    exact ⟨body.bindingId, ofText_of_canonicalKey hkey, hproves⟩
  · rename_i t' claims aud ttl r hev
    obtain ⟨rfl, rfl⟩ := Event.act.inj hev
    have hclaims : claims.binding_id = some b.text := by simpa using haccepts
    obtain ⟨body, binding, -, hread, hbinding, hproves⟩ := hlogin (by simp [hclaims])
    rw [hclaims, Option.some.injEq] at hbinding
    obtain ⟨c₀, -, -, hr₀, -, -⟩ := hr.entry
    have hspells := (binding_of_read hr₀ (mem_own.mp hread)).1
    rw [← Uuid.text_injective hbinding] at hspells
    exact ⟨body.bindingId, hspells, hproves⟩
  · simp at haccepts

/-- While the requests spell each binding in one way and no failure overtakes a check, the lockout is
effective. -/
theorem lockout_effective (hr : (broker D).Reach tr c) (hspelt : SpeltAlike tr) (hstands : ChecksStand tr) :
    LockoutEffective tr := by
  rintro l₁ ⟨s, ev⟩ l₂ b rfl hlocked
  obtain ⟨c₀, -, -, hr₀, hb, -⟩ := hr.entry
  have hspelt₀ : SpeltAlike l₂ := hspelt.mono (older_subset _ _)
  -- A check that the entry goes by stands, so that the binding is not locked out.
  have hcontra : ∀ {t a x u}, ev = .act t a →
      (issuesLogin b ⟨s, .act t a⟩ = true ∨ acceptsLogin b ⟨s, .act t a⟩ = true) → GoesBy l₂ t u →
      Uuid.ofText x = some b → ¬ CheckedOn (own u l₂) x := by
    rintro t a x u rfl hlogin hgoes hx hchecked
    have hnot : lockedOut l₂ c₀.store.now b = false := by
      refine not_lockedOut hr₀ hspelt₀ hx hchecked fun m₁ s' n m₂ hl₂ => ?_
      exact hstands b l₁ s t a l₂ rfl hlogin u hgoes m₁ s' x n m₂ hl₂ hx
    rw [show c₀.store = s from hb, hlocked] at hnot
    simp at hnot
  constructor
  · by_contra hissues
    rw [Bool.not_eq_false] at hissues
    have hissues' := hissues
    unfold issuesLogin at hissues'
    split at hissues'
    · rename_i t k record ttl r hev
      replace hev : ev = .act t ⟨.challenge (.set k record ttl), r⟩ := hev
      subst hev
      simp only [Bool.and_eq_true, beq_iff_eq] at hissues'
      exact hcontra rfl (.inl hissues) (.inl rfl) hissues'.2 (checked_of_issued hr hissues'.1)
    · simp at hissues'
  · by_contra haccepts
    rw [Bool.not_eq_false] at haccepts
    cases ev with
    | act t a =>
      obtain ⟨x, hx, hproves⟩ := proved_of_accepted hr haccepts
      obtain ⟨u, hgoes, hchecked⟩ := checked_of_proved hr₀ hproves
      exact hcontra rfl (.inr haccepts) hgoes hx hchecked
    | arrive t q => simp [acceptsLogin] at haccepts
    | env => simp [acceptsLogin] at haccepts

/-! ## A run that locks a device out, and one that goes around it -/

/-- Call `t` fails to log in, with a challenge that was never issued; `counts` are the commands that count
it. -/
def sampleFailure (t : ℕ) (x : String) (counts : List Oracle) : Script :=
  .arrive (.login ⟨x, sampleId 'Z', "signed"⟩) :: Script.go t ([.unit, .unit] ++ counts ++ [sampleRowId])

/-- The calls from `t` on fail to log in, up to the limit. -/
def sampleFailures (t : ℕ) (x : String) : Script :=
  sampleFailure t x [.unit, .unit] ++ sampleFailure (t + 1) x [.unit] ++ sampleFailure (t + 2) x [.unit] ++
    sampleFailure (t + 3) x [.unit] ++ sampleFailure (t + 4) x [.unit, .unit]

/-- The device is locked out, and asks for a challenge with call 9. -/
def sampleLockout : Script :=
  sampleSession ++ sampleFailures 4 (sampleUuid 2).text ++
    .arrive (.loginChallenge (sampleUuid 2).text) :: Script.go 9 [.unit, .unit]

/-- The binding 10 has a challenge, from call 2, when it is locked out. Call 8 asks for another one, with the
id of the binding in capitals, and call 9 logs in with the first. -/
def sampleStock : Script :=
  sampleEnrolment 0 [.unit, .unit, .unit, .unit, .unit] 10 'A' 'B' ++ sampleActivation 1 10 'A' ++
    Script.go 1 [.unit, sampleRowId] ++ .arrive (.loginChallenge (sampleUuid 10).text) ::
    Script.go 2 [.unit, .unit, .text (sampleId 'C'), .text (sampleSecret 'D'), .unit, .unit, sampleRowId] ++
    sampleFailures 3 (sampleUuid 10).text ++ .arrive (.loginChallenge (sampleUuid 10).text.toUpper) ::
    Script.go 8 [.unit, .unit, .text (sampleId 'E'), .text (sampleSecret 'F'), .unit, .unit, sampleRowId] ++
    .arrive (.login ⟨(sampleUuid 10).text, sampleId 'C', "signed"⟩) ::
    Script.go 9 [.unit, .unit, .unit, .unit]

/-- Whether an entry of the run that satisfies `p` came while the binding was locked out. -/
def whileLockedOut (b : Uuid) (p : Step → Bool) : Run → Bool
  | [] => false
  | e :: l => (lockedOut l e.before.now b && p e) || whileLockedOut b p l

theorem exists_of_whileLockedOut {b : Uuid} {p : Step → Bool} (h : whileLockedOut b p tr = true) :
    ∃ l₁ e l₂, tr = l₁ ++ e :: l₂ ∧ lockedOut l₂ e.before.now b = true ∧ p e = true := by
  induction tr with
  | nil => simp [whileLockedOut] at h
  | cons e l ih =>
    simp only [whileLockedOut, Bool.or_eq_true, Bool.and_eq_true] at h
    rcases h with ⟨hlocked, hp⟩ | h
    · exact ⟨[], e, l, rfl, hlocked, hp⟩
    · obtain ⟨l₁, e', l₂, rfl, hrest⟩ := ih h
      exact ⟨e :: l₁, e', l₂, rfl, hrest⟩

/-- A spelling in capitals gets a challenge, and a challenge from before the lockout logs in. -/
theorem lockout_bypassed_sampleStock : ∃ tr c b, (broker sampleDeployment).Reach tr c ∧
    (∃ l₁ e l₂, tr = l₁ ++ e :: l₂ ∧ lockedOut l₂ e.before.now b = true ∧ issuesLogin b e = true) ∧
    (∃ l₁ e l₂, tr = l₁ ++ e :: l₂ ∧ lockedOut l₂ e.before.now b = true ∧ acceptsLogin b e = true) ∧
    ¬ LockoutEffective tr := by
  obtain ⟨tr, c, hr, hrun⟩ := (broker sampleDeployment).exists_of_play sampleStock.reverse
    (p := fun run => whileLockedOut (sampleUuid 10) (issuesLogin (sampleUuid 10)) run.1 &&
      whileLockedOut (sampleUuid 10) (acceptsLogin (sampleUuid 10)) run.1) (by decide +kernel)
  rw [Bool.and_eq_true] at hrun
  obtain ⟨l₁, e, l₂, htr, hlocked, hissues⟩ := exists_of_whileLockedOut hrun.1
  refine ⟨tr, c, sampleUuid 10, hr, ⟨l₁, e, l₂, htr, hlocked, hissues⟩, exists_of_whileLockedOut hrun.2, ?_⟩
  intro heffective
  have hnot := (heffective l₁ e l₂ _ htr hlocked).1
  rw [hissues] at hnot
  simp at hnot

/-- The entry may issue a challenge or accept a login. -/
def mayLogIn (e : Step) : Bool :=
  match e.event with
  | .act _ ⟨.challenge (.set _ _ _), _⟩ => true
  | .act _ ⟨.counter (.del _), _⟩ => true
  | .act _ ⟨.jwt (.sign _ _ _), _⟩ => true
  | _ => false

/-- The entry counts up to the limit. -/
def countsUp (e : Step) : Bool :=
  match e.event with
  | .act _ ⟨.counter (.incr _), some n⟩ => decide (LOGIN_MAX_FAILURES ≤ n)
  | _ => false

/-- Whether nothing was counted up to the limit before the challenges and the logins of the run. -/
def logsInBefore : Run → Bool
  | [] => true
  | e :: l => (!mayLogIn e || l.all fun e' => !countsUp e') && logsInBefore l

theorem mayLogIn_of_login {b : Uuid} {e : Step} (h : issuesLogin b e = true ∨ acceptsLogin b e = true) :
    mayLogIn e = true := by
  unfold mayLogIn
  rcases h with h | h
  · unfold issuesLogin at h
    split at h <;> simp_all
  · unfold acceptsLogin at h
    split at h <;> simp_all

theorem countsUp_of_reachesLimit {b : Uuid} {e : Step} (h : reachesLimit b e = true) : countsUp e = true := by
  unfold reachesLimit at h
  unfold countsUp
  split at h <;> simp_all

theorem checksStand_of_logsInBefore (h : logsInBefore tr = true) : ChecksStand tr := by
  intro b l₁ s t a l₂ htr hlogin u _ m₁ s' x n m₂ hl₂ _ e he
  have hmay := mayLogIn_of_login hlogin
  have hbefore : ∀ e' ∈ l₂, countsUp e' = false := by
    subst htr
    induction l₁ with
    | nil =>
      simp only [List.nil_append, logsInBefore, hmay, Bool.and_eq_true, Bool.not_true, Bool.false_or,
        List.all_eq_true, Bool.not_eq_true'] at h
      exact h.1
    | cons e₀ l ih =>
      simp only [List.cons_append, logsInBefore, Bool.and_eq_true] at h
      exact ih h.2
  rw [← Bool.not_eq_true]
  intro hreaches
  have hup := hbefore e (by rw [hl₂]; exact List.mem_append_left _ he)
  rw [countsUp_of_reachesLimit hreaches] at hup
  simp at hup

/-- Whether a request that arrives spells its binding so. -/
def spells (x : String) (e : Step) : Bool :=
  match e.event with
  | .arrive _ q => q.loginSpelling.all (· == x)
  | _ => true

theorem speltAlike_of_all {x : String} (h : tr.all (spells x) = true) : SpeltAlike tr := by
  have hall : ∀ {t q y}, Arrived tr t q → q.loginSpelling = some y → y = x := by
    rintro t q y ⟨e, he, hev⟩ hy
    have hspells := List.all_eq_true.mp h e he
    simpa [spells, hev, hy] using hspells
  intro t q y t' q' y' b ha hy ha' hy' _ _
  rw [hall ha hy, hall ha' hy']

/-- The device that failed to log in is locked out. -/
theorem lockout_effective_sampleLockout : ∃ tr c, (broker sampleDeployment).Reach tr c ∧ SpeltAlike tr ∧
    ChecksStand tr ∧ lockedOut tr c.store.now (sampleUuid 2) = true ∧ LockoutEffective tr := by
  obtain ⟨tr, c, hr, hrun⟩ := (broker sampleDeployment).exists_of_play sampleLockout.reverse
    (p := fun run => run.1.all (spells (sampleUuid 2).text) && logsInBefore run.1 &&
      lockedOut run.1 run.2.store.now (sampleUuid 2)) (by decide +kernel)
  simp only [Bool.and_eq_true] at hrun
  obtain ⟨⟨hspells, hbefore⟩, hlocked⟩ := hrun
  have hspelt := speltAlike_of_all hspells
  have hstands := checksStand_of_logsInBefore hbefore
  exact ⟨tr, c, hr, hspelt, hstands, hlocked, lockout_effective hr hspelt hstands⟩

end SdidBridge
