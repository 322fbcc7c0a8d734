import SdidBridge.Broker.Handlers
import SdidBridge.Broker.Objects
import SdidBridge.Concurrent.Ticket

/-!
# What is drawn, signed, and issued

Three facts about the runs of the broker that rest on randomness and on the broker's keys. A text is
drawn once, so that a challenge is issued once under its id (`issued_once`). A challenge that is
consumed was issued before and has not been consumed before (`consumed_once`). A token that verifies
was signed before (`signed_of_verified`).
-/

namespace SdidBridge

open Concurrent Machine

variable {D : Deployment} {tr l₁ l₂ : Run} {c : State} {s : Store} {t u : ℕ} {a : Cmd}

/-- What precedes a command of a run in its call. -/
theorem onPath (hr : (broker D).Reach (l₁ ++ ⟨s, .act t a⟩ :: l₂) c) :
    ∃ q, Arrived l₂ t q ∧ OnPath D q (own t l₂) a.op :=
  hr.act_along (paths D)

/-! ## Draws -/

/-- What a command does to the random source: it draws a text that was not drawn before, or it does
nothing. -/
theorem draws_step {x x' : List String} {a : Act AmbientOp AmbientOp.Res}
    (hs : (draws D).Step x a x') :
    (∃ n e y, a = ⟨.randomBytes n e, some y⟩ ∧ y ∉ x ∧ x' = y :: x) ∨
    ((∀ n e y, a ≠ ⟨.randomBytes n e, some y⟩) ∧ x' = x) := by
  obtain ⟨o, r⟩ := a
  rcases hs with ⟨i, now, z, hz, rfl⟩ | ⟨hr, rfl⟩
  · cases o with
    | now =>
      simp only [AmbientOp.exec, Option.some.injEq, Prod.mk.injEq] at hz
      exact .inr ⟨by simp, by rw [← hz.2]⟩
    | uuidv7 =>
      simp only [AmbientOp.exec] at hz
      split at hz
      · split_ifs at hz
        simp only [Option.some.injEq, Prod.mk.injEq] at hz
        exact .inr ⟨by simp, by rw [← hz.2]⟩
      · simp at hz
    | randomBytes n e =>
      simp only [AmbientOp.exec] at hz
      split at hz
      · rename_i y
        split_ifs at hz with hy
        simp only [Option.some.injEq, Prod.mk.injEq] at hz
        obtain ⟨rfl, rfl⟩ := hz
        exact .inl ⟨n, e, y, rfl, hy.2, rfl⟩
      · simp at hz
  · refine .inr ⟨?_, rfl⟩
    rintro n e y h
    cases h
    simp at hr

section Draws

variable {Req ρ : Type} {handle : Req → H ρ} {tr l₁ l₂ : List (Entry Op Op.Res Req Store)}
  {c : Config Op Op.Res Failure ρ Store}

/-- What a call has drawn is on record. -/
theorem mem_drawn (hr : (served D handle).Reach tr c) {n : ℕ} {e : Encoding} {x : String}
    (hd : Did tr t ⟨.ambient (.randomBytes n e), some x⟩) : x ∈ c.store.ambient.drawn := by
  let X := (draws D).onMachine (served D handle) rfl rfl
  have hmem : (t, ⟨.randomBytes n e, some x⟩) ∈ X.acts tr := X.mem_acts.mpr hd
  refine (X.history hr).recorded
    (Q := fun a s => ∀ n e y, a = ⟨.randomBytes n e, some y⟩ → y ∈ s) ?_ ?_ hmem n e x rfl
  · rintro s a s' hs n e y rfl
    rcases draws_step (D := D) hs with ⟨n', e', y', ha, -, rfl⟩ | ⟨hno, -⟩
    · cases ha
      exact List.mem_cons_self
    · exact absurd rfl (hno n e y)
  · intro a s b s' hs ha n e y hay
    have hy := ha n e y hay
    rcases draws_step (D := D) hs with ⟨n', e', y', -, -, rfl⟩ | ⟨-, rfl⟩
    · exact List.mem_cons_of_mem _ hy
    · exact hy

/-- A text that is drawn was not drawn before. -/
theorem draw_fresh {n n' : ℕ} {e e' : Encoding} {x : String}
    (hr : (served D handle).Reach
      (l₁ ++ ⟨s, .act t ⟨.ambient (.randomBytes n e), some x⟩⟩ :: l₂) c) :
    ¬ Did l₂ u ⟨.ambient (.randomBytes n' e'), some x⟩ := by
  intro hd
  let X := (draws D).onMachine (served D handle) rfl rfl
  obtain ⟨y, hstep⟩ := X.step_at ⟨.randomBytes n e, some x⟩ hr
  obtain ⟨c₀, m, c₁, hr₀, hb, -⟩ := hr.entry
  have hx := mem_drawn hr₀ hd
  rw [hb] at hx
  rcases draws_step (D := D) hstep with ⟨n₂, e₂, y', ha, hy', -⟩ | ⟨hno, -⟩
  · cases ha
    exact hy' hx
  · exact hno n e x rfl

/-- A text is drawn by one call. -/
theorem draw_unique (hr : (served D handle).Reach tr c) {n n' : ℕ} {e e' : Encoding} {x : String}
    (hd : Did tr t ⟨.ambient (.randomBytes n e), some x⟩)
    (hd' : Did tr u ⟨.ambient (.randomBytes n' e'), some x⟩) :
    t = u ∧ (⟨.ambient (.randomBytes n e), some x⟩ : Cmd) = ⟨.ambient (.randomBytes n' e'), some x⟩ := by
  refine hr.unique (P := fun _ a => ∃ n e, a = ⟨.ambient (.randomBytes n e), some x⟩) ?_ hd
    ⟨n, e, rfl⟩ hd' ⟨n', e', rfl⟩
  rintro l₁ s t a l₂ c hr ⟨n, e, rfl⟩ u b hb ⟨n', e', rfl⟩
  exact draw_fresh hr hb

/-- The path has just drawn the id `k`, and a nonce after it. -/
def DrawsId (h : List Cmd) (k nonce : String) : Prop :=
  ∃ h', h = [⟨.ambient (.randomBytes 32 .base64url), some nonce⟩] ++
    ⟨.ambient (.randomBytes 16 .base64url), some k⟩ :: h'

theorem DrawsId.did {k nonce : String} (h : DrawsId (own t tr) k nonce) :
    Did tr t ⟨.ambient (.randomBytes 16 .base64url), some k⟩ ∧
    Did tr t ⟨.ambient (.randomBytes 32 .base64url), some nonce⟩ := by
  obtain ⟨h', hown⟩ := h
  simp only [← mem_own, hown]
  simp

/-- Of the commands that name an id which was drawn right before them, a run has at most one for each
id. -/
theorem named_once {P : String → Cmd → Prop} (hdraw : ∀ k n e r, ¬ P k ⟨.ambient (.randomBytes n e), r⟩)
    (hP : ∀ {l₁ s t a l₂ c k}, (served D handle).Reach (l₁ ++ ⟨s, .act t a⟩ :: l₂) c → P k a →
      ∃ nonce, DrawsId (own t l₂) k nonce) {k : String}
    (hr : (served D handle).Reach (l₁ ++ ⟨s, .act t a⟩ :: l₂) c) (ha : P k a) {b : Cmd}
    (hd : Did l₂ u b) : ¬ P k b := by
  intro hb
  have drawn : ∀ {tr c v d}, (served D handle).Reach tr c → Did tr v d → P k d →
      Did tr v ⟨.ambient (.randomBytes 16 .base64url), some k⟩ := by
    intro tr c v d hr hd hPd
    obtain ⟨m₁, s', m₂, rfl⟩ := hd.split
    obtain ⟨nonce, hdraws⟩ := hP hr hPd
    exact hdraws.did.1.mono (older_subset _ _)
  obtain ⟨nonce, hdraws⟩ := hP hr ha
  obtain ⟨c₂, -, -, hr₂, -, -⟩ := hr.entry
  -- Both calls drew the id, so that they are one call.
  obtain ⟨hut, -⟩ := draw_unique hr₂ (drawn hr₂ hd hb) hdraws.did.1
  subst hut
  -- The earlier command came before the draw, and had a draw of its own before it.
  obtain ⟨h', hown⟩ := hdraws
  obtain ⟨m₁, s₁, m₂, rfl, -, hm₂⟩ := exists_of_own_eq hown
  have hearly : Did m₂ u b := by
    have hmem := mem_own.mpr hd
    rw [hown] at hmem
    rw [← mem_own, hm₂]
    rcases List.mem_append.mp hmem with h | h
    · rw [List.mem_singleton.mp h] at hb
      exact absurd hb (hdraw _ _ _ _)
    · rcases List.mem_cons.mp h with rfl | h
      · exact absurd hb (hdraw _ _ _ _)
      · exact h
  obtain ⟨c₃, -, -, hr₃, -, -⟩ := hr₂.entry
  exact draw_fresh hr₂ (drawn hr₃ hearly hb)

end Draws

/-! ## Challenges -/

/-- A value is kept under a key, whether or not it has expired. -/
def Holds {α : Type} (es : List (Timed α)) (k : String) (v : α) : Prop :=
  ∃ e ∈ es, e.key = k ∧ e.value = v

/-- A live value under a key is kept under it. -/
theorem holds_of_lookup {α : Type} {now : Time} {k : String} {es : List (Timed α)} {v : α}
    (h : lookup now k es = some v) : Holds es k v := by
  obtain ⟨e, he, rfl⟩ := Option.map_eq_some_iff.mp h
  have hk := List.find?_some he
  simp only [Bool.and_eq_true, beq_iff_eq] at hk
  exact ⟨e, List.mem_of_find?_eq_some he, hk.1, rfl⟩

/-- A key space with the commands `set` and `getdel`, as they are answered, keeps tickets. -/
theorem tickets_of_getdel {Op' : Type} {Res' : Op' → Type} {α : Type}
    {Step : List (Timed α) → Act Op' Res' → List (Timed α) → Prop}
    (set : String → α → ℕ → Act Op' Res') (getdel : String → Option α → Act Op' Res')
    (hstep : ∀ {x a x'}, Step x a x' →
      (∃ k v ttl now, a = set k v ttl ∧ x' = ⟨k, v, now⟩ :: without k x) ∨
      (∃ k now, a = getdel k (lookup now k x) ∧ x' = without k x) ∨
      ((∀ k v ttl, a ≠ set k v ttl) ∧ (∀ k r, a ≠ getdel k r) ∧ x' = x))
    (hset : ∀ {k v ttl k' v' ttl'}, set k v ttl = set k' v' ttl' → k = k' ∧ v = v')
    (hget : ∀ {k r k' r'}, getdel k r = getdel k' r' → k = k' ∧ r = r')
    (hne : ∀ {k v ttl k' r}, set k v ttl ≠ getdel k' r) :
    Tickets Step Holds (fun a k v => ∃ ttl, a = set k v ttl) (fun a k v => a = getdel k (some v))
      (fun a k => ∃ r, a = getdel k r) where
  origin := by
    rintro x a x' k v hs ⟨e, he, rfl, rfl⟩
    rcases hstep hs with ⟨k, v, ttl, now, rfl, rfl⟩ | ⟨k, now, rfl, rfl⟩ | ⟨-, hno, rfl⟩
    · rcases List.mem_cons.mp he with rfl | he
      · exact .inl ⟨ttl, rfl⟩
      · exact .inr ⟨⟨e, List.mem_of_mem_filter he, rfl, rfl⟩, fun ⟨r, hr⟩ => hne hr⟩
    · obtain ⟨he, hk⟩ := List.mem_filter.mp he
      refine .inr ⟨⟨e, he, rfl, rfl⟩, fun ⟨r, hr⟩ => ?_⟩
      simp [(hget hr).1] at hk
    · exact .inr ⟨⟨e, he, rfl, rfl⟩, fun ⟨r, hr⟩ => hno _ _ hr⟩
  taken := by
    rintro x a x' k v hs rfl
    rcases hstep hs with ⟨k', v', ttl, now, ha, -⟩ | ⟨k', now, ha, -⟩ | ⟨-, hno, -⟩
    · exact absurd ha.symm hne
    · obtain ⟨rfl, hv⟩ := hget ha
      exact holds_of_lookup hv.symm
    · exact absurd rfl (hno _ _)
  drops := by
    rintro a k v rfl
    exact ⟨_, rfl⟩
  puts := by
    rintro a k v ⟨ttl, rfl⟩ ⟨r, hr⟩
    exact hne hr

/-- The challenges are tickets. -/
theorem challenges_tickets : Tickets (challenges D).Step Holds
    (fun a k v => ∃ ttl, a = ⟨.set k v ttl, some ()⟩) (fun a k v => a = ⟨.getdel k, some (some v)⟩)
    (fun a k => ∃ r, a = ⟨.getdel k, some r⟩) := by
  refine tickets_of_getdel (fun k v ttl => (⟨.set k v ttl, some ()⟩ : Act _ ChallengeOp.Res))
    (fun k r => ⟨.getdel k, some r⟩) ?_ (by simp_all) (by simp_all) (by simp)
  rintro x ⟨o, r⟩ x' (⟨now, hx⟩ | ⟨hr, rfl⟩)
  · cases o with
    | set k v ttl =>
      simp only [ChallengeOp.exec, Prod.mk.injEq] at hx
      obtain ⟨rfl, rfl⟩ := hx
      exact .inl ⟨k, v, ttl, _, rfl, rfl⟩
    | getdel k =>
      simp only [ChallengeOp.exec, Prod.mk.injEq] at hx
      obtain ⟨rfl, rfl⟩ := hx
      exact .inr (.inl ⟨k, now, rfl, rfl⟩)
  · simp only at hr
    subst hr
    exact .inr (.inr ⟨by rintro _ _ _ ⟨⟩, by rintro _ _ ⟨⟩, rfl⟩)

/-- The attestation nonces are tickets. -/
theorem nonces_tickets : Tickets (nonces D).Step Holds
    (fun a k v => ∃ ttl, a = ⟨.set k v ttl, some ()⟩) (fun a k v => a = ⟨.getdel k, some (some v)⟩)
    (fun a k => ∃ r, a = ⟨.getdel k, some r⟩) := by
  refine tickets_of_getdel (fun k v ttl => (⟨.set k v ttl, some ()⟩ : Act _ NonceOp.Res))
    (fun k r => ⟨.getdel k, some r⟩) ?_ (by simp_all) (by simp_all) (by simp)
  rintro x ⟨o, r⟩ x' (⟨now, hx⟩ | ⟨hr, rfl⟩)
  · cases o with
    | set k v ttl =>
      simp only [NonceOp.exec, Prod.mk.injEq] at hx
      obtain ⟨rfl, rfl⟩ := hx
      exact .inl ⟨k, v, ttl, _, rfl, rfl⟩
    | getdel k =>
      simp only [NonceOp.exec, Prod.mk.injEq] at hx
      obtain ⟨rfl, rfl⟩ := hx
      exact .inr (.inl ⟨k, now, rfl, rfl⟩)
  · simp only at hr
    subst hr
    exact .inr (.inr ⟨by rintro _ _ _ ⟨⟩, by rintro _ _ ⟨⟩, rfl⟩)

/-- A challenge is issued right after its id and its nonce are drawn. -/
theorem drawsId_of_issued {k : String} {record : ChallengeRecord} {ttl : ℕ} {r : Option Unit}
    (hr : (broker D).Reach (l₁ ++ ⟨s, .act t ⟨.challenge (.set k record ttl), r⟩⟩ :: l₂) c) :
    DrawsId (own t l₂) k record.nonce := by
  obtain ⟨q, -, hfollows, -⟩ := onPath hr
  exact hfollows.1

/-- An id is issued once. -/
theorem issued_once {k : String} {record record' : ChallengeRecord} {ttl ttl' : ℕ}
    {r r' : Option Unit}
    (hr : (broker D).Reach (l₁ ++ ⟨s, .act t ⟨.challenge (.set k record ttl), r⟩⟩ :: l₂) c) :
    ¬ Did l₂ u ⟨.challenge (.set k record' ttl'), r'⟩ := by
  intro hd
  refine named_once (D := D)
    (P := fun k a => ∃ record ttl r, a = ⟨.challenge (.set k record ttl), r⟩) (by simp) ?_ hr
    ⟨record, ttl, r, rfl⟩ hd ⟨record', ttl', r', rfl⟩
  rintro l₁ s t a l₂ c k hr ⟨record, ttl, r, rfl⟩
  exact ⟨record.nonce, drawsId_of_issued hr⟩

/-- A challenge that is consumed was issued before, and has not been consumed before. -/
theorem consumed_once {k : String} {record : ChallengeRecord}
    (hr : (broker D).Reach
      (l₁ ++ ⟨s, .act t ⟨.challenge (.getdel k), some (some record)⟩⟩ :: l₂) c) :
    (∃ u ttl, Did l₂ u ⟨.challenge (.set k record ttl), some ()⟩) ∧
    ∀ u record', ¬ Did l₂ u ⟨.challenge (.getdel k), some (some record')⟩ := by
  have hnone : ∀ k v, ¬ Holds ((challenges D).get (broker D).init) k v := by
    rintro k v ⟨e, he, -⟩
    simp [challenges, part, broker, Store.empty] at he
  refine ⟨?_, fun u record' hd => ?_⟩
  · obtain ⟨m₁, s₁, u, b, m₂, rfl, ⟨ttl, rfl⟩, -⟩ := challenges_tickets.put_of_taken
      (X := challenges D) rfl hnone (a := ⟨.getdel k, some (some record)⟩) hr rfl
    exact ⟨u, ttl, _, List.mem_append_right _ List.mem_cons_self, rfl⟩
  · refine challenges_tickets.taken_once (X := challenges D) rfl hnone ?_
      (a := ⟨.getdel k, some (some record)⟩) hr rfl
      (b := ⟨.getdel k, some (some record')⟩) hd rfl
    rintro l₁ l₂ c s t u a b k v w hr ⟨ttl, rfl⟩ hd ⟨ttl', rfl⟩
    exact issued_once hr hd

/-! ## Tokens -/

/-- A token that names a binding is a session that a login signs. -/
theorem SignsOn.session {q : Request} {h : Path} {claims : TokenClaims} (hs : SignsOn D q h claims)
    (hb : claims.binding_id ≠ none) :
    ∃ body b, q = .login body ∧ ReadsBinding h body.bindingId b ∧ claims = sessionClaims b := by
  unfold SignsOn at hs
  split at hs
  · obtain ⟨b, hread, hclaims⟩ := hs
    exact ⟨_, b, rfl, hread, hclaims⟩
  · exact absurd hs.1 hb
  · rw [hs] at hb
    exact absurd rfl hb
  · exact hs.elim

/-- What a command does to the signed tokens. -/
theorem jwts_step {x x' : List SignedJwt} {a : Act JwtOp JwtOp.Res} (hs : (jwts D).Step x a x') :
    (∃ claims aud ttl j, a = ⟨.sign claims aud ttl, some j.token⟩ ∧ j.claims = claims ∧
      j.aud = aud ∧ j.token ∉ x.map (·.token) ∧ x' = j :: x) ∨
    ((∀ claims aud ttl token, a ≠ ⟨.sign claims aud ttl, some token⟩) ∧
      (∀ token aud j, a = ⟨.verify token aud, some j⟩ → j ∈ x ∧ j.token = token) ∧ x' = x) := by
  obtain ⟨o, r⟩ := a
  rcases hs with ⟨i, now, hx⟩ | ⟨hr, rfl⟩
  · cases o with
    | sign claims aud ttl =>
      simp only [JwtOp.exec] at hx
      split at hx
      · split_ifs at hx with hfresh
        simp only [Option.some.injEq, Prod.mk.injEq] at hx
        obtain ⟨rfl, rfl⟩ := hx
        exact .inl ⟨claims, aud, ttl, _, rfl, rfl, rfl, hfresh, rfl⟩
      · simp at hx
    | verify token aud =>
      simp only [JwtOp.exec, Option.some.injEq, Prod.mk.injEq] at hx
      obtain ⟨hfound, rfl⟩ := hx
      refine .inr ⟨by simp, ?_, rfl⟩
      rintro token' aud' j ha
      simp only [Act.mk.injEq, JwtOp.verify.injEq] at ha
      obtain ⟨⟨rfl, rfl⟩, hj⟩ := ha
      rw [eq_of_heq hj] at hfound
      have hmatch := List.find?_some hfound
      simp only [Bool.and_eq_true, beq_iff_eq] at hmatch
      exact ⟨List.mem_of_find?_eq_some hfound, hmatch.1.1⟩
  · refine .inr ⟨?_, ?_, rfl⟩
    · rintro claims aud ttl token h
      cases h
      simp at hr
    · rintro token aud j h
      cases h
      simp at hr

/-- No two tokens on record have one text. -/
theorem jwts_nodup (hr : (broker D).Reach tr c) : (c.store.jwts.map (·.token)).Nodup := by
  refine (jwts D).invariant (P := fun x => (x.map (·.token)).Nodup) List.nodup_nil ?_ hr
  intro x a x' hs hn
  rcases jwts_step hs with ⟨claims, aud, ttl, j, -, -, -, hfresh, rfl⟩ | ⟨-, -, rfl⟩
  · rw [List.map_cons, List.nodup_cons]
    exact ⟨hfresh, hn⟩
  · exact hn

/-- A token on record stays on record. -/
theorem jwt_later (hr : (broker D).Reach tr c) {e : Step} (he : e ∈ tr) {j : SignedJwt}
    (hj : j ∈ e.before.jwts) : j ∈ c.store.jwts := by
  refine (jwts D).evolves (R := fun x y => x ⊆ y) (fun _ => List.Subset.refl _)
    (fun _ _ _ => List.Subset.trans) ?_ hr he hj
  intro x a x' hs
  rcases jwts_step hs with ⟨claims, aud, ttl, j, -, -, -, -, rfl⟩ | ⟨-, -, rfl⟩
  · exact List.subset_cons_self _ _
  · exact List.Subset.refl _

/-- A token that was signed is on record. -/
theorem stored_of_signed (hr : (broker D).Reach tr c) {claims : TokenClaims} {aud token : String} {ttl : ℕ}
    (hd : Did tr t ⟨.jwt (.sign claims aud ttl), some token⟩) :
    ∃ j ∈ c.store.jwts, j.token = token ∧ j.claims = claims ∧ j.aud = aud := by
  have hmem : (t, ⟨.sign claims aud ttl, some token⟩) ∈ (jwts D).acts tr := (jwts D).mem_acts.mpr hd
  refine ((jwts D).history hr).recorded (Q := fun a x => ∀ claims aud ttl token,
    a = ⟨.sign claims aud ttl, some token⟩ → ∃ j ∈ x, j.token = token ∧ j.claims = claims ∧ j.aud = aud)
    ?_ ?_ hmem claims aud ttl token rfl
  · rintro x a x' hs claims aud ttl token rfl
    rcases jwts_step hs with ⟨claims', aud', ttl', j, ha, rfl, rfl, -, rfl⟩ | ⟨hno, -⟩
    · cases ha
      exact ⟨j, List.mem_cons_self, rfl, rfl, rfl⟩
    · exact absurd rfl (hno claims aud ttl token)
  · intro a x b x' hs ha claims aud ttl token heq
    obtain ⟨j, hj, hsame⟩ := ha claims aud ttl token heq
    rcases jwts_step hs with ⟨_, _, _, j', -, -, -, -, rfl⟩ | ⟨-, -, rfl⟩
    · exact ⟨j, List.mem_cons_of_mem _ hj, hsame⟩
    · exact ⟨j, hj, hsame⟩

/-- Every token on record was signed. -/
theorem signed_of_stored {h : List (ℕ × Act JwtOp JwtOp.Res)} {x : List SignedJwt}
    (hh : History (jwts D).Step [] h x) {j : SignedJwt} (hj : j ∈ x) :
    ∃ t ttl, (t, ⟨.sign j.claims j.aud ttl, some j.token⟩) ∈ h := by
  induction hh with
  | nil => simp at hj
  | cons t a hh hs ih =>
    rcases jwts_step hs with ⟨claims, aud, ttl, j', rfl, rfl, rfl, -, rfl⟩ | ⟨-, -, rfl⟩
    · rcases List.mem_cons.mp hj with rfl | hj
      · exact ⟨t, ttl, List.mem_cons_self⟩
      · obtain ⟨t', ttl', hmem⟩ := ih hj
        exact ⟨t', ttl', List.mem_cons_of_mem _ hmem⟩
    · obtain ⟨t', ttl', hmem⟩ := ih hj
      exact ⟨t', ttl', List.mem_cons_of_mem _ hmem⟩

/-- A token that verifies was signed before. -/
theorem signed_of_verified {token : String} {aud : Option String} {j : SignedJwt}
    (hr : (broker D).Reach (l₁ ++ ⟨s, .act t ⟨.jwt (.verify token aud), some j⟩⟩ :: l₂) c) :
    ∃ u ttl, Did l₂ u ⟨.jwt (.sign j.claims j.aud ttl), some j.token⟩ := by
  obtain ⟨x, hstep⟩ := (jwts D).step_at ⟨.verify token aud, some j⟩ hr
  have hhist := (jwts D).history_before hr
  rcases jwts_step hstep with ⟨_, _, _, _, ha, -⟩ | ⟨-, hj, -⟩
  · cases ha
  · obtain ⟨u, ttl, hmem⟩ := signed_of_stored hhist (hj token aud j rfl).1
    exact ⟨u, ttl, (jwts D).mem_acts.mp hmem⟩

/-- A token that a call verified was signed by a call. -/
theorem signed_of_verify (hr : (broker D).Reach tr c) {token : String} {aud : Option String} {j : SignedJwt}
    (hd : Did tr t ⟨.jwt (.verify token aud), some j⟩) :
    ∃ u ttl, Did tr u ⟨.jwt (.sign j.claims j.aud ttl), some j.token⟩ := by
  obtain ⟨l₁, s, l₂, rfl⟩ := hd.split
  obtain ⟨u, ttl, hsigned⟩ := signed_of_verified hr
  exact ⟨u, ttl, hsigned.mono (older_subset _ _)⟩

/-- A token that a call verified is on record, under the text that was verified. -/
theorem stored_of_verified (hr : (broker D).Reach tr c) {token : String} {aud : Option String} {j : SignedJwt}
    (hd : Did tr t ⟨.jwt (.verify token aud), some j⟩) : j ∈ c.store.jwts ∧ j.token = token := by
  obtain ⟨l₁, s, l₂, rfl⟩ := hd.split
  obtain ⟨x, hstep⟩ := (jwts D).step_at ⟨.verify token aud, some j⟩ hr
  rcases jwts_step hstep with ⟨_, _, _, _, ha, -⟩ | ⟨-, hj, -⟩
  · cases ha
  · obtain ⟨hmem, htoken⟩ := hj token aud j rfl
    exact ⟨jwt_later hr (List.mem_append_right _ List.mem_cons_self) hmem, htoken⟩

/-- What verifies is what was signed under its text. -/
theorem claims_of_verified (hr : (broker D).Reach tr c) {token aud : String} {aud' : Option String}
    {claims : TokenClaims} {ttl : ℕ} {j : SignedJwt}
    (hsigned : Did tr t ⟨.jwt (.sign claims aud ttl), some token⟩)
    (hverified : Did tr u ⟨.jwt (.verify token aud'), some j⟩) : j.claims = claims ∧ j.aud = aud := by
  obtain ⟨j', hj', htoken', hclaims, haud⟩ := stored_of_signed hr hsigned
  obtain ⟨hj, htoken⟩ := stored_of_verified hr hverified
  have heq : j = j' := List.inj_on_of_nodup_map (jwts_nodup hr) hj hj' (htoken.trans htoken'.symm)
  rw [heq]
  exact ⟨hclaims, haud⟩

end SdidBridge
