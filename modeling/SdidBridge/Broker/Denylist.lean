import SdidBridge.Broker.Consents

/-!
# The denylist of tokens

A relying party revokes a token by its id, which is put on the denylist until the token expires. The text
that it sends is decoded without a look at its signature. As long as no relying party sends a text that
carries the id of another one's token, or an earlier expiry of one of its own, revocation is isolated and
permanent (`revocation_isolated`). A text of one's own making breaks both.

That an entry outlives its token is a matter of the clock: the entry is kept for the seconds that remain from
a time that was read before, and `now` only grows.
-/

namespace SdidBridge

open Concurrent Machine

variable {D : Deployment} {tr l₁ l₂ : Run} {c : State} {s s' : Store} {t u : ℕ}

/-! ## The clock -/

/-- No command moves the clock. -/
theorem exec_now {i : Oracle} {o : Op} {r : Option o.Res} (h : Op.exec D.engine i s o = some (r, s')) :
    s'.now = s.now := by
  cases o with
  | ambient o =>
    simp only [Op.exec, Option.map_eq_some_iff, Prod.exists, Prod.mk.injEq] at h
    obtain ⟨r', x, hx, -, rfl⟩ := h
    cases o with
    | now =>
      simp only [AmbientOp.exec, Option.some.injEq, Prod.mk.injEq] at hx
      rw [← hx.2]
    | uuidv7 =>
      simp only [AmbientOp.exec] at hx
      split at hx
      · split_ifs at hx
        simp only [Option.some.injEq, Prod.mk.injEq] at hx
        rw [← hx.2]
      · simp at hx
    | randomBytes n e =>
      simp only [AmbientOp.exec] at hx
      split at hx
      · split_ifs at hx
        simp only [Option.some.injEq, Prod.mk.injEq] at hx
        rw [← hx.2]
        rfl
      · simp at hx
  | _ =>
    simp only [Op.exec, Option.map_eq_some_iff, Prod.exists, Prod.mk.injEq, Option.some.injEq] at h
    grind [Store.now]

section Served

variable {Req ρ : Type} {handle : Req → H ρ}

/-- The clock does not move while a command is executed. -/
theorem leads_act_now {a : Cmd} (hl : (served D handle).Leads ⟨s, .act t a⟩ s') : s'.now = s.now := by
  rcases hl with ⟨i, hx⟩ | ⟨-, -, rfl⟩
  · exact exec_now (D := D) (i := i) hx
  · rfl

/-- The clock only moves on. -/
theorem leads_now {e : Entry Op Op.Res Req Store} (hl : (served D handle).Leads e s) : e.before.now ≤ s.now := by
  obtain ⟨s₀, ev⟩ := e
  cases ev with
  | arrive t q => rw [show s = s₀ from hl]
  | act t a => exact (leads_act_now hl).ge
  | env =>
    obtain ⟨i, hi⟩ := hl
    simp only [served, Store.elapse] at hi
    split at hi
    · rw [← Option.some.inj hi]
      exact Nat.le_add_right _ _
    · simp at hi

/-- Every state of a run is later than those before. -/
theorem now_later {tr : List (Entry Op Op.Res Req Store)} {c : Config Op Op.Res Failure ρ Store}
    (hr : (served D handle).Reach tr c) {e : Entry Op Op.Res Req Store} (he : e ∈ tr) :
    e.before.now ≤ c.store.now :=
  hr.stable (P := fun s => e.before.now ≤ s.now) (fun _ _ _ hl h => h.trans (leads_now hl)) e he le_rfl

/-! ## Entries of the denylist -/

/-- What a command does to the flags. -/
theorem leads_flag {o : FlagOp} {r : Option o.Res} (hl : (served D handle).Leads ⟨s, .act t ⟨.flag o, r⟩⟩ s') :
    (r = none ∧ s' = s) ∨ (o.exec s.now s.flags = (r, s'.flags) ∧ s' = { s with flags := s'.flags }) := by
  rcases hl with ⟨i, hx⟩ | ⟨hnone, -, rfl⟩
  · simp only [served, Op.exec, Option.some.injEq, Prod.mk.injEq] at hx
    obtain ⟨rfl, rfl⟩ := hx
    exact .inr ⟨rfl, rfl⟩
  · exact .inl ⟨hnone, rfl⟩

/-- Up to a deadline, there is an entry under the key that expires no earlier. -/
def KeptUntil (s : Store) (key : String) (deadline : Time) : Prop :=
  s.now < deadline → ∃ e ∈ s.flags, e.key = key ∧ e.expiresAt.all (deadline ≤ ·) = true

/-- An entry that is kept is found. -/
theorem KeptUntil.found {key : String} {deadline : Time} (h : KeptUntil s key deadline) (hnow : s.now < deadline) :
    (lookup s.now key s.flags).isSome = true := by
  obtain ⟨e, he, hkey, hexpiry⟩ := h hnow
  rw [lookup, Option.isSome_map, List.find?_isSome]
  refine ⟨e, he, ?_⟩
  simp only [hkey, beq_self_eq_true, Bool.true_and]
  cases hx : e.expiresAt with
  | none => rfl
  | some x =>
    rw [hx] at hexpiry
    have hle : deadline ≤ x := by simpa using hexpiry
    simpa using lt_of_lt_of_le hnow hle

theorem mem_without {α : Type} {key : String} {es : List (Timed α)} {e : Timed α} (he : e ∈ es)
    (hkey : e.key ≠ key) : e ∈ without key es :=
  List.mem_filter.mpr ⟨he, by simpa using hkey⟩

/-- The flags, under any handlers. -/
abbrev servedFlags (D : Deployment) (handle : Req → H ρ) :
    Object (served D handle) FlagOp FlagOp.Res (List (Timed Unit)) :=
  (flags D).onMachine (served D handle) (served_exec D handle) (served_env D handle)

/-- An entry is kept by every command but one that sets it to expire earlier. -/
theorem KeptUntil.step {key : String} {deadline : Time} {e : Entry Op Op.Res Req Store}
    (hl : (served D handle).Leads e s')
    (h : KeptUntil e.before key deadline)
    (hset : ∀ t ttl, e.event = .act t ⟨.flag (.set key ttl), some ()⟩ → deadline ≤ e.before.now + ttl * 1000) :
    KeptUntil s' key deadline := by
  intro hnow
  have hbefore : e.before.now < deadline := lt_of_le_of_lt (leads_now hl) hnow
  obtain ⟨x, hx, hkey, hexpiry⟩ := h hbefore
  rcases (servedFlags D handle).leads hl with ⟨t, ⟨o, r⟩, he, -⟩ | ⟨-, hsame⟩
  swap
  · exact ⟨x, by rw [show s'.flags = e.before.flags from hsame]; exact hx, hkey, hexpiry⟩
  obtain ⟨s, ev⟩ := e
  simp only at he
  subst he
  rcases leads_flag hl with ⟨-, rfl⟩ | ⟨hexec, -⟩
  · exact ⟨x, hx, hkey, hexpiry⟩
  cases o with
  | set k ttl =>
    simp only [FlagOp.exec, Prod.mk.injEq] at hexec
    obtain ⟨rfl, hflags⟩ := hexec
    rw [← hflags]
    by_cases hk : k = key
    · subst hk
      exact ⟨_, List.mem_cons_self, rfl, by simpa using hset t ttl rfl⟩
    · refine ⟨x, List.mem_cons_of_mem _ (mem_without hx ?_), hkey, hexpiry⟩
      rw [hkey]
      exact Ne.symm hk
  | setNx k ttl =>
    simp only [FlagOp.exec] at hexec
    split_ifs at hexec with hfound
    · simp only [Prod.mk.injEq] at hexec
      rw [← hexec.2]
      exact ⟨x, hx, hkey, hexpiry⟩
    · simp only [Prod.mk.injEq] at hexec
      rw [← hexec.2]
      -- The entry is live, so that the flag that was not found is another one.
      have hk : k ≠ key := by
        rintro rfl
        exact hfound (h.found hbefore)
      refine ⟨x, List.mem_cons_of_mem _ (mem_without hx ?_), hkey, hexpiry⟩
      rw [hkey]
      exact Ne.symm hk
  | get k =>
    simp only [FlagOp.exec, Prod.mk.injEq] at hexec
    rw [← hexec.2]
    exact ⟨x, hx, hkey, hexpiry⟩

end Served

/-- An entry for the seconds that remain from an earlier time outlives its token. -/
theorem outlives {exp : ℤ} {expiry now₀ now : ℕ} (hexp : (expiry : ℤ) ≤ exp) (hnow : now₀ ≤ now) :
    expiry * 1000 ≤ now + (max (exp - (now₀ / 1000 : ℕ)) 1).toNat * 1000 := by
  omega

/-- The entries under other keys are found as before. -/
theorem lookup_set {α : Type} {now : Time} {key key' : String} {v : α} {x : Option Time} {es : List (Timed α)}
    (hkey : key ≠ key') : lookup now key (⟨key', v, x⟩ :: without key' es) = lookup now key es := by
  have hne : (key' == key) = false := by simpa using Ne.symm hkey
  unfold lookup without
  rw [List.find?_cons_of_neg (by simp [hne]), List.find?_filter]
  congr 2
  funext e
  by_cases he : e.key = key
  · simp [he, hkey]
  · simp [he]

/-! ## What revocation does -/

section Paths

variable {h : Path}

/-- The commands of a revocation. -/
def Op.Revokes : Op → Prop
  | .rp (.selectByClientId _) => True
  | .ambient .now => True
  | .flag (.set _ _) => True
  | .audit (.append _) => True
  | _ => False

theorem only_revoke {creds : Option Credentials} {token : Option String} :
    (revoke D creds token).Only Op.Revokes := by
  refine .bind (.bind (Prog.only_orThrow _ _) fun _ => .bind (Prog.only_perform _ trivial) fun _ =>
    .bind (Prog.only_orThrow _ _) fun _ => .bind (Prog.only_orThrow _ _) fun _ =>
      .bind (Prog.only_throwIf _ _) fun _ => .bind (Prog.only_throwIf _ _) fun _ => Prog.only_pure _)
    fun rp => ?_
  cases (truthy token).bind D.decodeJwt with
  | none => exact Prog.only_pure _
  | some payload =>
    refine .recover ?_ fun _ => Prog.only_pure _
    unfold denyToken
    split
    · exact Prog.only_pure _
    · exact .ite (.bind (Prog.only_perform _ trivial) fun _ => .bind (Prog.only_perform _ trivial) fun _ =>
        Prog.only_perform _ trivial) (Prog.only_pure _)

/-- The denylist has been written, or the clock has failed. -/
def DeniedOn (h : Path) (jti : String) : Prop :=
  (⟨.ambient .now, none⟩ : Cmd) ∈ h ∨ ∃ ttl r, (⟨.flag (.set ("revoked:" ++ jti) ttl), r⟩ : Cmd) ∈ h

/-- A revocation by an audience of the token writes to the denylist, or fails on the way. -/
theorem along_denyToken {rp : RelyingParty} {payload : DecodedJwt} {jti : String}
    (hjti : payload.jti = some jti) (haud : rp.clientId ∈ payload.aud) :
    Prog.Along (fun _ _ => True) (fun h' _ => DeniedOn h' jti) h (denyToken rp payload) := by
  unfold denyToken
  rw [hjti]
  simp only [haud, if_true]
  refine And.intro trivial fun now => ?_
  cases now with
  | none => exact .inl List.mem_cons_self
  | some now =>
    refine And.intro trivial fun written => ?_
    cases written with
    | none => exact .inr ⟨_, _, List.mem_cons_self⟩
    | some _ =>
      refine And.intro trivial fun audited => ?_
      cases audited <;> exact .inr ⟨_, _, List.mem_cons_of_mem _ List.mem_cons_self⟩

/-- What a revocation has done when it returns. -/
theorem yields_revoke {creds : Option Credentials} {token : Option String} :
    Yields (fun _ _ => True) [] (revoke D creds token) fun _ h' => ∃ cr rp, creds = some cr ∧
      (⟨.rp (.selectByClientId cr.clientId), some (some rp)⟩ : Cmd) ∈ h' ∧ ∀ payload jti,
        (truthy token).bind D.decodeJwt = some payload → payload.jti = some jti → rp.clientId ∈ payload.aud →
          DeniedOn h' jti := by
  rw [revoke, yields_bind]
  refine (yields_authenticateClient fun _ _ => trivial).mono ?_
  rintro rp h ⟨cr, rfl, hread⟩
  cases hpayload : (truthy token).bind D.decodeJwt with
  | none => exact ⟨cr, rp, rfl, hread.1, fun payload jti h => by simp at h⟩
  | some payload =>
    have hdenies : Yields (fun _ _ => True) h ((denyToken rp payload).recover fun _ => pure ()) fun _ h' =>
        ∀ jti, payload.jti = some jti → rp.clientId ∈ payload.aud → DeniedOn h' jti := by
      by_cases hown : ∃ jti, payload.jti = some jti ∧ rp.clientId ∈ payload.aud
      · obtain ⟨jti, hjti, haud⟩ := hown
        unfold Yields
        rw [Prog.along_recover]
        refine (along_denyToken hjti haud).mono (fun _ _ h => h) fun h' r hdenied => ?_
        have hany : ∀ jti', payload.jti = some jti' → rp.clientId ∈ payload.aud → DeniedOn h' jti' := by
          intro jti' hjti' _
          obtain rfl := Option.some.inj (hjti.symm.trans hjti')
          exact hdenied
        cases r with
        | ok _ => exact hany
        | error e => exact hany
      · exact (yields_suffix _).mono fun _ h' _ jti hjti haud => absurd ⟨jti, hjti, haud⟩ hown
    refine ((yields_suffix _).and hdenies).mono ?_
    rintro _ h' ⟨hs, hdenied⟩
    refine ⟨cr, rp, rfl, hs.mem hread.1, ?_⟩
    rintro payload' jti heq
    obtain rfl := Option.some.inj heq
    exact hdenied jti

/-- What introspection has checked before it answers that a token is active. -/
theorem yields_introspect {creds : Option Credentials} {token : Option String} :
    Yields (fun _ _ => True) [] (introspect D creds token) fun r h' => ∀ j, r = some j → ∃ x, token = some x ∧
      (⟨.jwt (.verify x none), some j⟩ : Cmd) ∈ h' ∧
      (⟨.flag (.get ("revoked:" ++ j.jti)), some false⟩ : Cmd) ∈ h' := by
  rw [introspect, yields_bind]
  refine (yields_authenticateClient fun _ _ => trivial).mono fun rp h _ => ?_
  cases htoken : truthy token with
  | none => exact fun j hj => by simp at hj
  | some x =>
    refine And.intro trivial fun payload => ?_
    cases payload with
    | none => exact fun j hj => by simp at hj
    | some payload =>
      refine And.intro trivial fun revoked => ?_
      cases revoked with
      | none => exact fun j hj => by simp at hj
      | some revoked =>
        cases revoked with
        | true => exact fun j hj => by simp at hj
        | false =>
          intro j hj
          obtain rfl := Option.some.inj hj
          exact ⟨x, truthy_eq_some htoken, List.mem_cons_of_mem _ List.mem_cons_self, List.mem_cons_self⟩

end Paths

/-! ## Isolation and permanence -/

/-- What the checks of user info and of introspection say of a token: it verifies, and it is not on the
denylist. -/
def Accepts (s : Store) (j : SignedJwt) : Prop :=
  (JwtOp.exec .unit s.now s.jwts (.verify j.token none)).map Prod.fst = some (some j) ∧
    (FlagOp.exec s.now s.flags (.get ("revoked:" ++ j.jti))).1 = some false

instance (s : Store) (j : SignedJwt) : Decidable (Accepts s j) :=
  inferInstanceAs (Decidable (_ ∧ _))

/-- A text that is revoked in the name of a client says nothing of the tokens of others: those of the tokens
`js` that have its id are the client's own, and the text does not make them expire earlier. A text that does
not name the client as an audience is not looked at. -/
def Request.revokesOwn (D : Deployment) (js : List SignedJwt) : Request → Bool
  | .revoke (some creds) text =>
    match (truthy text).bind D.decodeJwt with
    | some payload => !(payload.aud.contains creds.clientId) || js.all fun j => payload.jti != some j.jti ||
        (j.aud == creds.clientId && decide ((j.exp : ℤ) ≤ payload.exp.getD 0))
    | none => true
  | _ => true

/-- Every relying party revokes tokens of its own, and no write to the denylist fails. -/
structure RevokesOwn (D : Deployment) (tr : Run) (c : State) : Prop where
  /-- The texts that are sent. -/
  requests : ∀ t q, Arrived tr t q → q.revokesOwn D c.store.jwts = true
  /-- The writes. -/
  answered : ∀ t key ttl, ¬ Did tr t ⟨.flag (.set key ttl), none⟩

/-- The decoder reads from a token of the broker what was signed. -/
def Decodes (D : Deployment) (js : List SignedJwt) : Prop :=
  ∀ j ∈ js, j.token ≠ "" ∧ ∃ use, D.decodeJwt j.token = some ⟨[j.aud], some j.jti, some j.exp, use⟩

/-- Revocation is isolated and permanent. -/
structure RevocationIsolated (D : Deployment) (tr : Run) (c : State) : Prop where
  /-- A revocation does not change whether a token of another relying party is accepted. -/
  isolated : ∀ s t a s' creds token j, (⟨s, .act t a⟩ : Step) ∈ tr → (broker D).Leads ⟨s, .act t a⟩ s' →
    Arrived tr t (.revoke (some creds) token) → j ∈ c.store.jwts → j.aud ≠ creds.clientId →
      (Accepts s' j ↔ Accepts s j)
  /-- Once the relying party that a token is for has revoked it, the calls that arrive later and that are over
  before it expires do not accept it. -/
  permanent : ∀ l₁ l₂ c₀ t creds j, tr = l₁ ++ l₂ → (broker D).Reach l₂ c₀ → j ∈ c.store.jwts →
    Arrived l₂ t (.revoke (some creds) (some j.token)) → creds.clientId = j.aud →
      c₀.calls[t]? = some (.ret .done) → c.store.now / 1000 < j.exp →
        (∀ u r, Arrived l₁ u (.userinfo (some j.token)) → c.calls[u]? ≠ some (.ret r)) ∧
        (∀ u creds' j', Arrived l₁ u (.introspect creds' (some j.token)) →
          c.calls[u]? ≠ some (.ret (.introspection (some j'))))

/-- What decides whether a token is accepted. -/
theorem accepts_congr {j : SignedJwt} (hnow : s'.now = s.now) (hjwts : s'.jwts = s.jwts)
    (hflag : lookup s'.now ("revoked:" ++ j.jti) s'.flags = lookup s.now ("revoked:" ++ j.jti) s.flags) :
    Accepts s' j ↔ Accepts s j := by
  simp only [Accepts, FlagOp.exec]
  rw [hflag, hjwts, hnow]

/-- The clock does not fail. -/
theorem not_did_now (hr : (broker D).Reach tr c) : ¬ Did tr t ⟨.ambient .now, none⟩ := by
  intro hd
  obtain ⟨l₁, s, l₂, rfl⟩ := hd.split
  obtain ⟨c₀, m, c₁, -, -, hs⟩ := hr.entry
  rcases step_leads hs with ⟨i, hx⟩ | ⟨-, hfallible, -⟩
  · simp [broker, Op.exec, AmbientOp.exec] at hx
  · simp [broker, Op.fallible] at hfallible

/-- A time that a call has read is past. -/
theorem now_of_did (hr : (broker D).Reach tr c) {now : Time} (hd : Did tr t ⟨.ambient .now, some now⟩) :
    now ≤ c.store.now := by
  obtain ⟨l₁, s, l₂, rfl⟩ := hd.split
  obtain ⟨c₀, m, c₁, -, hb, hs⟩ := hr.entry
  have hle := now_later hr (List.mem_append_right _ List.mem_cons_self)
  rcases step_leads hs with ⟨i, hx⟩ | ⟨hnone, -⟩
  · simp only [broker, Op.exec, AmbientOp.exec, Option.map_some, Option.some.injEq, Prod.mk.injEq] at hx
    have hnow : s.now = now := by
      rw [← show c₀.store = s from hb]
      exact hx.1
    rw [← hnow]
    exact hle
  · simp at hnone

/-- What a write to the denylist says of the tokens on record. -/
theorem owned_of_denied {q : Request} {h : Path} {js : List SignedJwt} {key : String} {ttl : ℕ}
    (hdenies : DeniesOn D q h key ttl) (hread : ∀ clientId rp,
      (⟨.rp (.selectByClientId clientId), some (some rp)⟩ : Cmd) ∈ h → rp.clientId = clientId)
    (hown : q.revokesOwn D js = true) : ∃ creds token, ∃ exp : ℤ, ∃ now : Time, q = .revoke (some creds) token ∧
      (⟨.ambient .now, some now⟩ : Cmd) ∈ h ∧ ttl = (max (exp - (now / 1000 : ℕ)) 1).toNat ∧
      ∀ j ∈ js, key = "revoked:" ++ j.jti → j.aud = creds.clientId ∧ (j.exp : ℤ) ≤ exp := by
  obtain ⟨creds, token, payload, rp, jti, now, h', rfl, hpayload, hrp, hjti, haud, rfl, rfl, rfl⟩ := hdenies
  refine ⟨creds, token, payload.exp.getD 0, now, rfl, List.mem_cons_self, rfl, ?_⟩
  rw [hread _ _ hrp] at haud
  intro j hj hkey
  have hsame : payload.jti = some j.jti := by
    rw [hjti, (String.append_right_inj _).mp hkey]
  simp only [Request.revokesOwn, hpayload] at hown
  have hall : (js.all fun j => payload.jti != some j.jti ||
      (j.aud == creds.clientId && decide ((j.exp : ℤ) ≤ payload.exp.getD 0))) = true := by
    simpa [haud] using hown
  have hj' := List.all_eq_true.mp hall j hj
  simpa [hsame] using hj'

section Isolation

variable (hr : (broker D).Reach tr c) (hown : RevokesOwn D tr c)

include hr hown

/-- A write to the denylist, in a run in which every relying party revokes its own. -/
theorem owned_at {key : String} {ttl : ℕ} {r : Option Unit}
    (htr : tr = l₁ ++ ⟨s, .act t ⟨.flag (.set key ttl), r⟩⟩ :: l₂) :
    ∃ creds token, ∃ exp : ℤ, ∃ now : Time, Arrived tr t (.revoke (some creds) token) ∧ now ≤ s.now ∧
      ttl = (max (exp - (now / 1000 : ℕ)) 1).toNat ∧
      ∀ j ∈ c.store.jwts, key = "revoked:" ++ j.jti → j.aud = creds.clientId ∧ (j.exp : ℤ) ≤ exp := by
  subst htr
  obtain ⟨q, hq, hdenies, -⟩ := onPath hr
  obtain ⟨c₀, -, -, hr₀, hb, -⟩ := hr.entry
  have harrived := hq.mono (older_subset (e := ⟨s, .act t ⟨.flag (.set key ttl), r⟩⟩) l₁ l₂)
  have hread : ∀ clientId rp, (⟨.rp (.selectByClientId clientId), some (some rp)⟩ : Cmd) ∈ own t l₂ →
      rp.clientId = clientId := by
    intro clientId rp hmem
    obtain ⟨m₁, s', m₂, rfl⟩ := (mem_own.mp hmem).split
    exact (mem_of_selectByClientId hr₀).2
  obtain ⟨creds, token, exp, now, rfl, hnow, httl, howned⟩ :=
    owned_of_denied hdenies hread (hown.requests t q harrived)
  have hle := now_of_did hr₀ (mem_own.mp hnow)
  rw [show c₀.store = s from hb] at hle
  exact ⟨creds, token, exp, now, harrived, hle, httl, howned⟩

/-- From the revocation of a token on, its entry outlives it. -/
theorem kept_since {k : Run} {c' : State} {j : SignedJwt} {ttl : ℕ} (hj : j ∈ c.store.jwts)
    (htr : tr = k ++ (l₁ ++ ⟨s, .act t ⟨.flag (.set ("revoked:" ++ j.jti) ttl), some ()⟩⟩ :: l₂))
    (hr' : (broker D).Reach
      (l₁ ++ ⟨s, .act t ⟨.flag (.set ("revoked:" ++ j.jti) ttl), some ()⟩⟩ :: l₂) c') :
    KeptUntil c'.store ("revoked:" ++ j.jti) (j.exp * 1000) := by
  -- Every write under the id of the token is for the seconds that the token has left, at least.
  have hlong : ∀ m₁ s t ttl m₂,
      tr = m₁ ++ ⟨s, .act t ⟨.flag (.set ("revoked:" ++ j.jti) ttl), some ()⟩⟩ :: m₂ →
        j.exp * 1000 ≤ s.now + ttl * 1000 := by
    intro m₁ s t ttl m₂ hm
    obtain ⟨creds, token, exp, now, -, hnow, httl, howned⟩ := owned_at hr hown hm
    rw [httl]
    exact outlives (howned j hj rfl).2 hnow
  have hnew : j.exp * 1000 ≤ s.now + ttl * 1000 := hlong (k ++ l₁) s t ttl l₂ (by rw [htr, List.append_assoc])
  have hlater : ∀ e ∈ l₁, ∀ t ttl, e.event = .act t ⟨.flag (.set ("revoked:" ++ j.jti) ttl), some ()⟩ →
      j.exp * 1000 ≤ e.before.now + ttl * 1000 := by
    rintro ⟨s', ev⟩ he t' ttl' rfl
    obtain ⟨m₁, m₂, rfl⟩ := List.append_of_mem he
    have hsplit : tr = (k ++ m₁) ++ ⟨s', .act t' ⟨.flag (.set ("revoked:" ++ j.jti) ttl'), some ()⟩⟩ ::
        (m₂ ++ ⟨s, .act t ⟨.flag (.set ("revoked:" ++ j.jti) ttl), some ()⟩⟩ :: l₂) := by
      rw [htr, List.append_assoc, List.append_assoc, List.cons_append]
    exact hlong _ _ _ _ _ hsplit
  refine hr'.since (P := fun s => KeptUntil s ("revoked:" ++ j.jti) (j.exp * 1000)) ?_ ?_
  · intro s' hl hnow
    rcases leads_flag hl with ⟨hnone, -⟩ | ⟨hexec, -⟩
    · simp at hnone
    · simp only [FlagOp.exec, Prod.mk.injEq] at hexec
      rw [← hexec.2]
      exact ⟨_, List.mem_cons_self, rfl, by simpa using hnew⟩
  · intro e he s' hl hkept
    exact hkept.step hl (hlater e he)

/-- A look at the denylist does not miss a token that has been revoked and that has not expired. -/
theorem not_missed {j : SignedJwt} {ttl : ℕ} (hj : j ∈ c.store.jwts) (htr : tr = l₁ ++ l₂)
    (hset : Did l₂ t ⟨.flag (.set ("revoked:" ++ j.jti) ttl), some ()⟩) (hnow : c.store.now / 1000 < j.exp) :
    ¬ Did l₁ u ⟨.flag (.get ("revoked:" ++ j.jti)), some false⟩ := by
  intro hget
  obtain ⟨k₁, s', k₂, rfl⟩ := hget.split
  obtain ⟨m₁, s, m₂, rfl⟩ := hset.split
  have hsplit : tr = k₁ ++ ⟨s', .act u ⟨.flag (.get ("revoked:" ++ j.jti)), some false⟩⟩ ::
      ((k₂ ++ m₁) ++ ⟨s, .act t ⟨.flag (.set ("revoked:" ++ j.jti) ttl), some ()⟩⟩ :: m₂) := by
    rw [htr, List.append_assoc, List.append_assoc, List.cons_append]
  have hr' := hr
  rw [hsplit] at hr'
  obtain ⟨c₀, m, c₁, hr₀, hb, hs⟩ := hr'.entry
  have hkept := kept_since hr hown hj (k := k₁ ++ [_]) (by rw [hsplit, List.append_cons]) hr₀
  rw [show c₀.store = s' from hb] at hkept
  have hle : s'.now ≤ c.store.now := now_later hr' (List.mem_append_right _ List.mem_cons_self)
  have hlive : c.store.now < j.exp * 1000 := (Nat.div_lt_iff_lt_mul (by norm_num)).mp hnow
  have hfound := hkept.found (hle.trans_lt hlive)
  rcases leads_flag (step_leads hs) with ⟨hnone, -⟩ | ⟨hexec, -⟩
  · simp at hnone
  · rw [show c₀.store = s' from hb] at hexec
    simp [FlagOp.exec, hfound] at hexec

/-- A revocation that is over has written the entry of its token. -/
theorem set_of_returned {c₀ : State} {creds : Credentials} {j : SignedJwt} (hj : j ∈ c.store.jwts)
    (hdecodes : Decodes D c.store.jwts) (htr : tr = l₁ ++ l₂) (hr₀ : (broker D).Reach l₂ c₀)
    (ha : Arrived l₂ t (.revoke (some creds) (some j.token))) (hclient : creds.clientId = j.aud)
    (hret : c₀.calls[t]? = some (.ret .done)) :
    ∃ ttl, Did l₂ t ⟨.flag (.set ("revoked:" ++ j.jti) ttl), some ()⟩ := by
  obtain ⟨hne, use, hdecode⟩ := hdecodes j hj
  obtain ⟨-, -, cr, rp, hcreds, hread, hdenies⟩ := hr₀.ret_of_arrived ha hret yields_revoke.reply
  obtain rfl := Option.some.inj hcreds
  have hrp : rp.clientId = creds.clientId := by
    obtain ⟨m₁, s', m₂, rfl⟩ := (mem_own.mp hread).split
    exact (mem_of_selectByClientId hr₀).2
  have htext : (truthy (some j.token)).bind D.decodeJwt = some ⟨[j.aud], some j.jti, some j.exp, use⟩ := by
    simp [truthy, Option.filter, hne, hdecode]
  rcases hdenies _ j.jti htext rfl (by simp [hrp, hclient]) with hclock | ⟨ttl, r, hset⟩
  · exact absurd (mem_own.mp hclock) (not_did_now hr₀)
  · have hset' := mem_own.mp hset
    cases r with
    | some r => exact ⟨ttl, hset'⟩
    | none =>
      have hlater := hset'.mono (List.subset_append_right l₁ l₂)
      rw [← htr] at hlater
      exact absurd hlater (hown.answered t _ ttl)

/-- A revocation leaves alone whether a token of another relying party is accepted. -/
theorem accepts_of_other {a : Cmd} {creds : Credentials} {token : Option String} {j : SignedJwt}
    (he : (⟨s, .act t a⟩ : Step) ∈ tr) (hl : (broker D).Leads ⟨s, .act t a⟩ s')
    (ha : Arrived tr t (.revoke (some creds) token)) (hj : j ∈ c.store.jwts) (haud : j.aud ≠ creds.clientId) :
    Accepts s' j ↔ Accepts s j := by
  obtain ⟨l₁, l₂, htr⟩ := List.append_of_mem he
  have hrevokes : a.op.Revokes := by
    subst htr
    exact hr.act_of_arrived ha (Only.yields (Φ := fun _ o => o.Revokes) (J := fun _ => True) only_revoke
      (fun _ _ _ ho => ⟨ho, fun _ => trivial⟩) trivial).reply
  have hnow : s'.now = s.now := leads_act_now hl
  have hjwts : s'.jwts = s.jwts := by
    rcases (jwts D).leads hl with ⟨t', ⟨o, r⟩, hev, -⟩ | ⟨-, hsame⟩
    · obtain ⟨rfl, rfl⟩ := Event.act.inj hev
      exact hrevokes.elim
    · exact hsame
  rcases (flags D).leads hl with ⟨t', ⟨o, r⟩, hev, -⟩ | ⟨-, hsame⟩
  · obtain ⟨rfl, rfl⟩ := Event.act.inj hev
    cases o with
    | set key ttl =>
      obtain ⟨creds', token', exp, now, ha', -, -, howned⟩ := owned_at hr hown htr
      have hcreds := hr.arrived_unique ha ha'
      simp only [Request.revoke.injEq, Option.some.injEq] at hcreds
      obtain ⟨rfl, rfl⟩ := hcreds
      -- The entry is under the id of another token.
      have hkey : "revoked:" ++ j.jti ≠ key := fun heq => haud (howned j hj heq.symm).1
      refine accepts_congr hnow hjwts ?_
      rcases leads_flag hl with ⟨-, rfl⟩ | ⟨hexec, -⟩
      · rfl
      · simp only [FlagOp.exec, Prod.mk.injEq] at hexec
        rw [← hexec.2, hnow]
        exact lookup_set hkey
    | setNx key ttl => exact hrevokes.elim
    | get key => exact hrevokes.elim
  · refine accepts_congr hnow hjwts ?_
    rw [hnow, show s'.flags = s.flags from hsame]

/-- In a run in which every relying party revokes tokens of its own, revocation is isolated and permanent. -/
theorem revocation_isolated (hdecodes : Decodes D c.store.jwts) : RevocationIsolated D tr c := by
  refine ⟨?_, ?_⟩
  · intro s t a s' creds token j he hl ha hj haud
    exact accepts_of_other hr hown he hl ha hj haud
  · intro l₁ l₂ c₀ t creds j htr hr₀ hj ha hclient hret hnow
    obtain ⟨ttl, hset⟩ := set_of_returned hr hown hj hdecodes htr hr₀ ha hclient hret
    have hmissed : ∀ u, ¬ Did l₁ u ⟨.flag (.get ("revoked:" ++ j.jti)), some false⟩ :=
      fun u => not_missed hr hown hj htr hset hnow
    subst htr
    -- What verifies under the text of the token is the token.
    have hsame : ∀ {u : ℕ} {j' : SignedJwt}, (⟨.jwt (.verify j.token none), some j'⟩ : Cmd) ∈ own u (l₁ ++ l₂) →
        j' = j := by
      intro u j' hverified
      obtain ⟨hj', htoken⟩ := stored_of_verified hr (mem_own.mp hverified)
      exact List.inj_on_of_nodup_map (jwts_nodup hr) hj' hj htoken
    refine ⟨fun u r harrived hret' => ?_, fun u creds' j' harrived hret' => ?_⟩
    · obtain ⟨info, -, token, j', hbearer, hinfo⟩ :=
        hr.ret_of_arrived (harrived.mono (List.subset_append_left _ _)) hret' yields_userinfo.reply
      obtain rfl := Option.some.inj hbearer
      obtain rfl := hsame hinfo.verified
      have hlive := hinfo.live
      rw [hr.own_of_arrived harrived] at hlive
      exact hmissed u (mem_own.mp hlive)
    · obtain ⟨r, heq, hchecks⟩ :=
        hr.ret_of_arrived (harrived.mono (List.subset_append_left _ _)) hret' yields_introspect.reply
      obtain rfl := Reply.introspection.inj heq
      obtain ⟨x, hx, hverified, hlive⟩ := hchecks j' rfl
      obtain rfl := Option.some.inj hx
      obtain rfl := hsame hverified
      rw [hr.own_of_arrived harrived] at hlive
      exact hmissed u (mem_own.mp hlive)

end Isolation

/-! ## Tokens of one's own making -/

/-- A deployment that decodes the tokens of the sample runs, and a text of a second relying party's own making
that carries the id of a token of the first. -/
def forgingDeployment : Deployment :=
  { sampleDeployment with
    decodeJwt := fun text =>
      if text = "session" then some ⟨["device-backchannel"], some "jti", some 900, none⟩
      else if text = "id-token" then some ⟨["rp_aaaaaaaaaaaa"], some "jti-1", some 300, none⟩
      else if text = "access-token" then some ⟨["rp_aaaaaaaaaaaa"], some "jti-2", some 600, none⟩
      else if text = "forged" then some ⟨["rp_cccccccccccc"], some "jti-2", some 0, none⟩
      else none }

/-- Whether the decoder reads from a token what was signed. -/
def decodes (D : Deployment) (j : SignedJwt) : Bool :=
  j.token != "" && (D.decodeJwt j.token).any fun payload =>
    payload.aud == [j.aud] && payload.jti == some j.jti && payload.exp == some (j.exp : ℤ)

theorem decodes_of_all {js : List SignedJwt} (h : js.all (decodes D) = true) : Decodes D js := by
  intro j hj
  have hj' := List.all_eq_true.mp h j hj
  simp only [decodes, Bool.and_eq_true, bne_iff_ne, Option.any_eq_true, beq_iff_eq] at hj'
  obtain ⟨hne, ⟨aud, jti, exp, use⟩, hdecode, ⟨rfl, rfl⟩, rfl⟩ := hj'
  exact ⟨hne, use, hdecode⟩

/-- The relying party revokes its access token with call 10, and call 11 asks for user info with it. -/
def sampleRevokedToken : Script :=
  sampleGrant ++ .arrive (.revoke (some ⟨"rp_aaaaaaaaaaaa", sampleSecret 's'⟩) (some "access-token")) ::
  Script.go 10 [.unit, .unit, .unit, sampleRowId] ++
  .arrive (.userinfo (some "access-token")) :: Script.go 11 [.unit, .unit]

/-- A second relying party is registered by call 10, and revokes a text of its own making with call 11. -/
def sampleForgery : Script :=
  sampleGrant ++ .arrive (.registerRp (some "admin")
    { name := "Shop", allowedScopes := ["openid"], allowedFlows := [.ciba] }) ::
  Script.go 10 [.uuid (sampleUuid 6), .text "cccccccccccc", .text (sampleSecret 't'),
    .text (String.ofList (List.replicate 64 'd')), .unit, sampleRowId] ++
  .arrive (.revoke (some ⟨"rp_cccccccccccc", sampleSecret 't'⟩) (some "forged")) ::
  Script.go 11 [.unit, .unit, .unit, sampleRowId]

/-- The entry is not one that the condition of isolation excludes. -/
def revokesOwnly (D : Deployment) (js : List SignedJwt) (e : Step) : Bool :=
  match e.event with
  | .arrive _ q => q.revokesOwn D js
  | .act _ ⟨.flag (.set _ _), none⟩ => false
  | _ => true

theorem revokesOwn_of_all (h : tr.all (revokesOwnly D c.store.jwts) = true) : RevokesOwn D tr c := by
  constructor
  · rintro t q ⟨e, he, hev⟩
    have hentry := List.all_eq_true.mp h e he
    simpa [revokesOwnly, hev] using hentry
  · rintro t key ttl ⟨e, he, hev⟩
    have hentry := List.all_eq_true.mp h e he
    simp [revokesOwnly, hev] at hentry

/-- The entry is the arrival of a revocation by a client as call `t`. -/
def revocationArrives (t : ℕ) (clientId : String) (e : Step) : Bool :=
  match e.event with
  | .arrive t' (.revoke (some creds) _) => t' == t && creds.clientId == clientId
  | _ => false

theorem arrived_of_revocationArrives {clientId : String} (h : ∃ e ∈ tr, revocationArrives t clientId e = true) :
    ∃ creds token, Arrived tr t (.revoke (some creds) token) ∧ creds.clientId = clientId := by
  obtain ⟨e, he, hs⟩ := h
  unfold revocationArrives at hs
  split at hs
  · rename_i t' creds token hev
    simp only [Bool.and_eq_true, beq_iff_eq] at hs
    rw [hs.1] at hev
    exact ⟨creds, token, ⟨e, he, hev⟩, hs.2⟩
  · simp at hs

/-- A command of call `t` after which a token of another client is not accepted any more. -/
def silences (t : ℕ) (clientId : String) (js : List SignedJwt) (p : Step × Store) : Bool :=
  match p.1.event with
  | .act t' _ => t' == t && js.any fun j =>
      j.aud != clientId && decide (Accepts p.1.before j) && !decide (Accepts p.2 j)
  | _ => false

/-- The text of the second relying party silences a token of the first. -/
theorem revocation_not_isolated_sampleForgery : ∃ tr c, (broker forgingDeployment).Reach tr c ∧
    Decodes forgingDeployment c.store.jwts ∧ ¬ RevocationIsolated forgingDeployment tr c := by
  obtain ⟨tr, c, hr, hrun⟩ := (broker forgingDeployment).exists_of_play sampleForgery.reverse
    (p := fun run => run.2.store.jwts.all (decodes forgingDeployment) &&
      run.1.any (revocationArrives 11 "rp_cccccccccccc") &&
      (steps run.1 run.2.store).any (silences 11 "rp_cccccccccccc" run.2.store.jwts)) (by decide +kernel)
  simp only [Bool.and_eq_true] at hrun
  obtain ⟨⟨hdecodes, harrives⟩, hsilences⟩ := hrun
  refine ⟨tr, c, hr, decodes_of_all hdecodes, fun hisolated => ?_⟩
  obtain ⟨creds, token, harrived, hclient⟩ := arrived_of_revocationArrives (List.any_eq_true.mp harrives)
  obtain ⟨⟨⟨s, ev⟩, s'⟩, hstep, hs⟩ := List.any_eq_true.mp hsilences
  unfold silences at hs
  split at hs
  · rename_i t' a hev
    simp only at hev
    subst hev
    simp only [Bool.and_eq_true, beq_iff_eq, List.any_eq_true, bne_iff_ne, Bool.not_eq_true', decide_eq_true_eq,
      decide_eq_false_iff_not] at hs
    obtain ⟨rfl, j, hj, ⟨haud, hbefore⟩, hafter⟩ := hs
    rw [← hclient] at haud
    have hsame := hisolated.isolated s _ a s' creds token j (mem_of_steps hstep) (hr.steps_lead _ hstep) harrived
      hj haud
    exact hafter (hsame.mpr hbefore)
  · simp at hs

/-- The entry is the arrival of a revocation of a token by its audience as call `t`. -/
def tokenRevoked (t : ℕ) (j : SignedJwt) (e : Step) : Bool :=
  match e.event with
  | .arrive t' (.revoke (some creds) token) => t' == t && creds.clientId == j.aud && token == some j.token
  | _ => false

theorem arrived_of_tokenRevoked {j : SignedJwt} (h : ∃ e ∈ tr, tokenRevoked t j e = true) :
    ∃ creds, Arrived tr t (.revoke (some creds) (some j.token)) ∧ creds.clientId = j.aud := by
  obtain ⟨e, he, hs⟩ := h
  unfold tokenRevoked at hs
  split at hs
  · rename_i t' creds token hev
    simp only [Bool.and_eq_true, beq_iff_eq] at hs
    obtain ⟨⟨rfl, hclient⟩, rfl⟩ := hs
    exact ⟨creds, ⟨e, he, hev⟩, hclient⟩
  · simp at hs

/-- Whether call `t` has returned nothing. -/
def isDone (c : State) (t : ℕ) : Bool :=
  match c.calls[t]? with
  | some (Prog.ret Reply.done) => true
  | _ => false

theorem ret_of_isDone (h : isDone c t = true) : c.calls[t]? = some (.ret .done) := by
  unfold isDone at h
  split at h
  · assumption
  · simp at h

/-- The token that its relying party has revoked is refused. -/
theorem revocation_isolated_sampleRevokedToken : ∃ l₁ l₂ c j, (broker forgingDeployment).Reach (l₁ ++ l₂) c ∧
    RevokesOwn forgingDeployment (l₁ ++ l₂) c ∧ Decodes forgingDeployment c.store.jwts ∧ j ∈ c.store.jwts ∧
    c.calls[10]? = some (.ret .done) ∧ Arrived l₁ 11 (.userinfo (some j.token)) ∧
    ∀ r, c.calls[11]? ≠ some (.ret r) := by
  obtain ⟨tr, c, hr, hrun⟩ := (broker forgingDeployment).exists_of_play sampleRevokedToken.reverse
    (p := fun run => run.2.store.jwts.all (decodes forgingDeployment) &&
      run.1.all (revokesOwnly forgingDeployment run.2.store.jwts) &&
      (own 10 (run.1.take 3)).isEmpty && isDone run.2 10 && run.2.store.jwts.any fun j =>
        decide (run.2.store.now / 1000 < j.exp) && (run.1.take 3).any (bearerArrives 11 j.token) &&
        (run.1.drop 3).any (tokenRevoked 10 j)) (by decide +kernel)
  simp only [Bool.and_eq_true, List.isEmpty_iff, List.any_eq_true, decide_eq_true_eq] at hrun
  obtain ⟨⟨⟨⟨hdecodes, howns⟩, hnone⟩, hdone⟩, j, hj, ⟨hnow, harrives⟩, hrevoked⟩ := hrun
  have htr : tr = tr.take 3 ++ tr.drop 3 := (List.take_append_drop 3 tr).symm
  have hdec := decodes_of_all hdecodes
  have hown := revokesOwn_of_all howns
  have harrived := arrived_of_bearerArrives harrives
  obtain ⟨creds, hrevokes, hclient⟩ := arrived_of_tokenRevoked hrevoked
  have hret := ret_of_isDone hdone
  rw [htr] at hr hown
  obtain ⟨c₀, hr₀, hcall⟩ := hr.call_before hnone hrevokes
  have hisolated := revocation_isolated hr hown hdec
  have hrefused := (hisolated.permanent _ _ c₀ 10 creds j rfl hr₀ hj hrevokes hclient (hcall.trans hret) hnow).1
  exact ⟨_, _, c, j, hr, hown, hdec, hj, hret, harrived, fun r => hrefused 11 r harrived⟩

end SdidBridge
