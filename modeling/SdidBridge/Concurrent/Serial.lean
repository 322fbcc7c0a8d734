import SdidBridge.Concurrent.Alone
import SdidBridge.Concurrent.System

/-!
# Calls one after another

While a call runs and no other does, the store changes by its own commands only. `During` is the calculus of
such calls: it says what holds of the commands executed so far and of the store, at each command on every path
through a program and at its end, where `A` is assumed of each command that is executed. `Serial` are the runs of
a machine in which a call arrives only when no call is in progress, and `Serial.during` carries to these runs
what holds during each call from any store that the calls leave behind.
-/

namespace SdidBridge.Concurrent

open Prog

variable {Op : Type} {Res : Op → Type} {ε α β ρ Req σ Inp : Type}

/-- What holds during a program that starts in the store `s` after the commands `h`, newest first: `Φ` at each
command, and `Ψ` at the end. -/
def During (exec : Inp → σ → (o : Op) → Option (Option (Res o) × σ))
    (A : List (Act Op Res) → σ → Act Op Res → Prop) (Φ : List (Act Op Res) → σ → Op → Prop)
    (Ψ : List (Act Op Res) → σ → Except ε α → Prop) : List (Act Op Res) → σ → Prog Op Res ε α → Prop
  | h, s, .ret a => Ψ h s (.ok a)
  | h, s, .raise e => Ψ h s (.error e)
  | h, s, .call o k => Φ h s o ∧
      ∀ i r s', exec i s o = some (r, s') → A h s ⟨o, r⟩ → During exec A Φ Ψ (⟨o, r⟩ :: h) s' (k r)

section Rules

variable {exec : Inp → σ → (o : Op) → Option (Option (Res o) × σ)}
  {A : List (Act Op Res) → σ → Act Op Res → Prop} {Φ Φ' : List (Act Op Res) → σ → Op → Prop}
  {Ψ Ψ' : List (Act Op Res) → σ → Except ε α → Prop} {h : List (Act Op Res)} {s : σ}

@[simp] theorem during_ret (a : α) : During exec A Φ Ψ h s (.ret a) ↔ Ψ h s (.ok a) := Iff.rfl

@[simp] theorem during_pure (a : α) :
    During exec A Φ Ψ h s (pure a : Prog Op Res ε α) ↔ Ψ h s (.ok a) := Iff.rfl

@[simp] theorem during_raise (e : ε) : During exec A Φ Ψ h s (.raise e) ↔ Ψ h s (.error e) := Iff.rfl

@[simp] theorem during_throwing (e : ε) : During exec A Φ Ψ h s (throwing e) ↔ Ψ h s (.error e) := Iff.rfl

theorem During.mono {p : Prog Op Res ε α} (hp : During exec A Φ Ψ h s p) (hΦ : ∀ h s o, Φ h s o → Φ' h s o)
    (hΨ : ∀ h s r, Ψ h s r → Ψ' h s r) : During exec A Φ' Ψ' h s p := by
  induction p generalizing h s with
  | ret a => exact hΨ _ _ _ hp
  | raise e => exact hΨ _ _ _ hp
  | call o k ih => exact ⟨hΦ _ _ _ hp.1, fun i r s' hx hA => ih r (hp.2 i r s' hx hA)⟩

/-- A weaker end. -/
theorem During.weaken {p : Prog Op Res ε α} (hp : During exec A Φ Ψ h s p)
    (hΨ : ∀ h s r, Ψ h s r → Ψ' h s r) : During exec A Φ Ψ' h s p :=
  hp.mono (fun _ _ _ h => h) hΨ

/-- The rule for sequencing, with an assertion `Q` between the two parts. -/
theorem During.bind {Ψ : List (Act Op Res) → σ → Except ε β → Prop} {p : Prog Op Res ε α}
    {f : α → Prog Op Res ε β} {Q : α → List (Act Op Res) → σ → Prop}
    (hp : During exec A Φ (fun h' s' r => match r with
      | .ok a => Q a h' s'
      | .error e => Ψ h' s' (.error e)) h s p)
    (hf : ∀ a h' s', Q a h' s' → During exec A Φ Ψ h' s' (f a)) : During exec A Φ Ψ h s (p >>= f) := by
  change During exec A Φ Ψ h s (p.bind f)
  induction p generalizing h s with
  | ret a => exact hf a h s hp
  | raise e => exact hp
  | call o k ih => exact ⟨hp.1, fun i r s' hx hA => ih r (hp.2 i r s' hx hA)⟩

/-- The rule for `catch`, with an assertion `Q` where the body throws. -/
theorem During.recover {p : Prog Op Res ε α} {f : ε → Prog Op Res ε α} {Q : ε → List (Act Op Res) → σ → Prop}
    (hp : During exec A Φ (fun h' s' r => match r with
      | .ok a => Ψ h' s' (.ok a)
      | .error e => Q e h' s') h s p)
    (hf : ∀ e h' s', Q e h' s' → During exec A Φ Ψ h' s' (f e)) : During exec A Φ Ψ h s (p.recover f) := by
  induction p generalizing h s with
  | ret a => exact hp
  | raise e => exact hf e h s hp
  | call o k ih => exact ⟨hp.1, fun i r s' hx hA => ih r (hp.2 i r s' hx hA)⟩

/-- The rule for a command that throws `e` when it fails, and what follows it. -/
theorem during_perform_bind {Ψ : List (Act Op Res) → σ → Except ε β → Prop} {e : ε} {o : Op}
    {f : Res o → Prog Op Res ε β} :
    During exec A Φ Ψ h s (perform e o >>= f) ↔ Φ h s o ∧
      (∀ i s', exec i s o = some (none, s') → A h s ⟨o, none⟩ → Ψ (⟨o, none⟩ :: h) s' (.error e)) ∧
      ∀ i r s', exec i s o = some (some r, s') → A h s ⟨o, some r⟩ → During exec A Φ Ψ (⟨o, some r⟩ :: h) s' (f r) := by
  constructor
  · rintro ⟨ho, hk⟩
    exact ⟨ho, fun i s' => hk i none s', fun i r s' => hk i (some r) s'⟩
  · rintro ⟨ho, hnone, hsome⟩
    refine ⟨ho, fun i r s' => ?_⟩
    cases r with
    | none => exact hnone i s'
    | some r => exact hsome i r s'

theorem during_ite {c : Prop} [Decidable c] {p p' : Prog Op Res ε α} (hp : c → During exec A Φ Ψ h s p)
    (hp' : ¬ c → During exec A Φ Ψ h s p') : During exec A Φ Ψ h s (if c then p else p') := by
  split_ifs with hc
  · exact hp hc
  · exact hp' hc

/-- What holds at the end of a program holds of each of its runs alone. -/
theorem During.alone {p : Prog Op Res ε α} {h' : List (Act Op Res)} {s' : σ} {x : Except ε α}
    (hp : During exec (fun _ _ _ => True) Φ Ψ h s p) (hrun : Alone exec s p h' s' x) : Ψ (h' ++ h) s' x := by
  induction p generalizing h s h' with
  | ret a =>
    obtain ⟨rfl, rfl, rfl⟩ := alone_ret.mp hrun
    exact hp
  | raise e =>
    obtain ⟨rfl, rfl, rfl⟩ := alone_raise.mp hrun
    exact hp
  | call o k ih =>
    obtain ⟨i, r, s₁, h₁, hx, hk, rfl⟩ := alone_call.mp hrun
    rw [List.append_assoc]
    exact ih r (hp.2 i r s₁ hx trivial) hk

/-- What always holds. -/
theorem during_of_forall (hΦ : ∀ h s o, Φ h s o) (hΨ : ∀ h s r, Ψ h s r) (p : Prog Op Res ε α) :
    During exec A Φ Ψ h s p := by
  induction p generalizing h s with
  | ret a => exact hΨ _ _ _
  | raise e => exact hΨ _ _ _
  | call o k ih => exact ⟨hΦ _ _ _, fun _ r _ _ _ => ih r⟩

/-- What follows any program. -/
theorem during_bind_of_forall {Ψ : List (Act Op Res) → σ → Except ε β → Prop} {p : Prog Op Res ε α}
    {f : α → Prog Op Res ε β} (hΦ : ∀ h s o, Φ h s o) (he : ∀ h s e, Ψ h s (.error e))
    (hf : ∀ a h s, During exec A Φ Ψ h s (f a)) : During exec A Φ Ψ h s (p >>= f) := by
  refine During.bind (Q := fun _ _ _ => True) (during_of_forall hΦ (fun h s r => ?_) p) fun a h s _ => hf a h s
  cases r with
  | ok a => trivial
  | error e => exact he h s e

/-- Two things that hold during a program hold together. -/
theorem During.and {p : Prog Op Res ε α} (hp : During exec A Φ Ψ h s p) (hp' : During exec A Φ' Ψ' h s p) :
    During exec A (fun h s o => Φ h s o ∧ Φ' h s o) (fun h s r => Ψ h s r ∧ Ψ' h s r) h s p := by
  induction p generalizing h s with
  | ret a => exact ⟨hp, hp'⟩
  | raise e => exact ⟨hp, hp'⟩
  | call o k ih =>
    exact ⟨⟨hp.1, hp'.1⟩, fun i r s' hx hA => ih r (hp.2 i r s' hx hA) (hp'.2 i r s' hx hA)⟩

/-! ## Parts that keep an assertion -/

/-- The commands that meet `C` keep the assertion `J`. -/
def Keeps (exec : Inp → σ → (o : Op) → Option (Option (Res o) × σ))
    (A : List (Act Op Res) → σ → Act Op Res → Prop) (Φ : List (Act Op Res) → σ → Op → Prop) (C : Op → Prop)
    (J : List (Act Op Res) → σ → Prop) : Prop :=
  ∀ h s o, J h s → C o → Φ h s o ∧ ∀ i r s', exec i s o = some (r, s') → A h s ⟨o, r⟩ → J (⟨o, r⟩ :: h) s'

variable {C : Op → Prop} {J : List (Act Op Res) → σ → Prop}

/-- What holds of the commands executed so far and of more is kept as well. -/
theorem Keeps.and_past {D : List (Act Op Res) → Prop} (hJ : Keeps exec A Φ C J) (hD : ∀ a h, D h → D (a :: h)) :
    Keeps exec A Φ C fun h s => J h s ∧ D h := by
  intro h s o hs ho
  obtain ⟨hΦ, hkeep⟩ := hJ h s o hs.1 ho
  exact ⟨hΦ, fun i r s' hx hA => ⟨hkeep i r s' hx hA, hD _ _ hs.2⟩⟩

/-- A program whose commands meet `C` keeps what they keep. -/
theorem Prog.Only.during {p : Prog Op Res ε α} (hp : Only C p) (hJ : Keeps exec A Φ C J) (h₀ : J h s) :
    During exec A Φ (fun h' s' _ => J h' s') h s p := by
  replace hp := hp h
  induction p generalizing h s with
  | ret a => exact h₀
  | raise e => exact h₀
  | call o k ih =>
    obtain ⟨ho, hk⟩ := hJ h s o h₀ hp.1
    exact ⟨ho, fun i r s' hx hA => ih r (hk i r s' hx hA) (hp.2 r)⟩

/-- What follows such a program. -/
theorem Prog.Only.during_bind {Ψ : List (Act Op Res) → σ → Except ε β → Prop} {p : Prog Op Res ε α}
    {f : α → Prog Op Res ε β} (hp : Only C p) (hJ : Keeps exec A Φ C J) (h₀ : J h s)
    (he : ∀ h s e, J h s → Ψ h s (.error e)) (hf : ∀ a h s, J h s → During exec A Φ Ψ h s (f a)) :
    During exec A Φ Ψ h s (p >>= f) := by
  refine During.bind (Q := fun _ h s => J h s) ((hp.during hJ h₀).weaken fun h' s' r hr => ?_) fun a h' s' => hf a h' s'
  cases r with
  | ok a => exact hr
  | error e => exact he h' s' e hr

end Rules

/-! ## Runs -/

namespace Machine

/-- The runs in which a call arrives only when no call is in progress. -/
inductive Serial (M : Machine Op Res ε ρ Req σ Inp) : List (Entry Op Res Req σ) → Config Op Res ε ρ σ → Prop
  | init : Serial M [] ⟨M.init, []⟩
  | arrive {tr c} (q : Req) (hr : Serial M tr c) (hover : ∀ t, ¬ InProgress c t) :
    Serial M (⟨c.store, .arrive c.calls.length q⟩ :: tr) ⟨c.store, c.calls ++ [M.handler q]⟩
  | act {tr c t o k i r s} (hr : Serial M tr c) (ht : c.calls[t]? = some (.call o k))
    (hx : M.exec i c.store o = some (r, s)) :
    Serial M (⟨c.store, .act t ⟨o, r⟩⟩ :: tr) ⟨s, c.calls.set t (k r)⟩

variable {M : Machine Op Res ε ρ Req σ Inp} {tr : List (Entry Op Res Req σ)} {c : Config Op Res ε ρ σ}
  {I : σ → Prop} {A : List (Act Op Res) → σ → Act Op Res → Prop}
  {Φ : Req → σ → List (Act Op Res) → σ → Op → Prop} {Ψ : Req → σ → List (Act Op Res) → σ → Except ε ρ → Prop}

theorem Serial.reach (hr : M.Serial tr c) : M.Reach tr c := by
  induction hr with
  | init => exact .init
  | arrive q hr hover ih => exact .step (m := .arrive q) ih rfl
  | @act tr c t o k i r s hr ht hx ih => exact .step (m := .go t i) ih (by simp [step, ht, hx])

/-- The calls keep the assertion `I` between them, and during the call `q` from the store `s` there hold `Φ q s` at
each command and `Ψ q s` at the end. -/
structure Lasting (M : Machine Op Res ε ρ Req σ Inp) (I : σ → Prop)
    (A : List (Act Op Res) → σ → Act Op Res → Prop) (Φ : Req → σ → List (Act Op Res) → σ → Op → Prop)
    (Ψ : Req → σ → List (Act Op Res) → σ → Except ε ρ → Prop) : Prop where
  /-- The assertion holds at the start. -/
  init : I M.init
  /-- Each call keeps it. -/
  call : ∀ q s, I s → During M.exec A (Φ q s) (fun h' s' r => I s' ∧ Ψ q s h' s' r) [] s (M.handler q)

/-- Where calls are over but the last, only the last can go on. -/
theorem last_of_running {cs : List (Prog Op Res ε ρ)} {p : Prog Op Res ε ρ} {t : ℕ} {o : Op}
    {k : Option (Res o) → Prog Op Res ε ρ} (hover : ∀ p ∈ cs, ∀ o k, p ≠ Prog.call o k)
    (ht : (cs ++ [p])[t]? = some (.call o k)) : t = cs.length ∧ p = .call o k := by
  have hlast : t = cs.length := by
    by_contra hne
    have hle := (List.getElem?_eq_some_iff.mp ht).1
    simp only [List.length_append, List.length_singleton] at hle
    have hlt : t < cs.length := by omega
    rw [List.getElem?_append_left hlt] at ht
    exact hover _ (List.mem_of_getElem? ht) o k rfl
  subst hlast
  exact ⟨rfl, by simpa using ht⟩

/-- Where a run stands: no call has been made, or the last one runs or has ended. -/
inductive Standing (M : Machine Op Res ε ρ Req σ Inp) (I : σ → Prop)
    (A : List (Act Op Res) → σ → Act Op Res → Prop) (Φ : Req → σ → List (Act Op Res) → σ → Op → Prop)
    (Ψ : Req → σ → List (Act Op Res) → σ → Except ε ρ → Prop) :
    List (Entry Op Res Req σ) → Config Op Res ε ρ σ → Prop
  | idle {tr s} (hI : I s) : Standing M I A Φ Ψ tr ⟨s, []⟩
  | last {tr s cs p q s₀} (hover : ∀ p ∈ cs, ∀ o k, p ≠ .call o k)
    (ha : (⟨s₀, .arrive cs.length q⟩ : Entry Op Res Req σ) ∈ tr)
    (hp : During M.exec A (Φ q s₀) (fun h' s' r => I s' ∧ Ψ q s₀ h' s' r) (own cs.length tr) s p) :
    Standing M I A Φ Ψ tr ⟨s, cs ++ [p]⟩

theorem Standing.rest (hs : Standing M I A Φ Ψ tr c) (hover : ∀ t, ¬ InProgress c t) : I c.store := by
  cases hs with
  | idle hI => exact hI
  | @last s cs p q s₀ _ ha hp =>
    cases p with
    | ret a => exact hp.1
    | raise e => exact hp.1
    | call o k => exact absurd ⟨o, k, by simp⟩ (hover cs.length)

/-- Every run stands somewhere. -/
theorem Serial.standing (hr : M.Serial tr c) (hL : Lasting M I A Φ Ψ)
    (hA : ∀ l₁ s t a l₂, tr = l₁ ++ ⟨s, .act t a⟩ :: l₂ → A (own t l₂) s a) : Standing M I A Φ Ψ tr c := by
  induction hr with
  | init => exact .idle hL.init
  | @arrive tr c q hr hover ih =>
    have hstand := ih fun l₁ s t a l₂ htr => hA (_ :: l₁) s t a l₂ (by rw [htr, List.cons_append])
    have hnew : own c.calls.length (⟨c.store, .arrive c.calls.length q⟩ :: tr : List (Entry Op Res Req σ)) = [] := by
      rw [own_cons_of_ne (by simp), List.eq_nil_iff_forall_not_mem]
      intro a ha
      exact absurd (hr.reach.did_lt (mem_own.mp ha)) (lt_irrefl _)
    refine .last (fun p hp o k hcall => ?_) List.mem_cons_self ?_
    · obtain ⟨t, ht, rfl⟩ := List.mem_iff_getElem.mp hp
      exact hover t ⟨o, k, by rw [List.getElem?_eq_getElem ht, hcall]⟩
    · rw [hnew]
      exact hL.call q c.store (hstand.rest hover)
  | @act tr c t o k i r s hr ht hx ih =>
    have hstand := ih fun l₁ s t a l₂ htr => hA (_ :: l₁) s t a l₂ (by rw [htr, List.cons_append])
    have hassumed : A (own t tr) c.store ⟨o, r⟩ := hA [] c.store t ⟨o, r⟩ tr rfl
    cases hstand with
    | idle hI => simp at ht
    | @last s₁ cs p q s₀ hover ha hp =>
      obtain ⟨rfl, rfl⟩ := last_of_running hover ht
      have hset : (cs ++ [Prog.call o k]).set cs.length (k r) = cs ++ [k r] := by simp
      rw [hset]
      refine .last hover (List.mem_cons_of_mem _ ha) ?_
      rw [own_cons_self]
      exact hp.2 i r s hx hassumed

/-- What holds at each command of a run. -/
theorem Serial.at_act {l₁ l₂ : List (Entry Op Res Req σ)} {s : σ} {t : ℕ} {a : Act Op Res}
    (hr : M.Serial (l₁ ++ ⟨s, .act t a⟩ :: l₂) c) (hL : Lasting M I A Φ Ψ)
    (hA : ∀ k₁ s' t' a' k₂, l₂ = k₁ ++ ⟨s', .act t' a'⟩ :: k₂ → A (own t' k₂) s' a') :
    ∃ q s₀, (⟨s₀, .arrive t q⟩ : Entry Op Res Req σ) ∈ l₂ ∧ Φ q s₀ (own t l₂) s a.op := by
  generalize htr : l₁ ++ ⟨s, .act t a⟩ :: l₂ = tr at hr
  induction hr generalizing l₁ with
  | init => simp at htr
  | @arrive tr c q hr hover ih =>
    cases l₁ with
    | nil => simp at htr
    | cons e l₁ => exact ih (List.cons.inj htr).2
  | @act tr c u o k i r s' hr ht hx ih =>
    cases l₁ with
    | cons e l₁ => exact ih (List.cons.inj htr).2
    | nil =>
      obtain ⟨he, rfl⟩ := List.cons.inj htr
      simp only [Entry.mk.injEq, Event.act.injEq] at he
      obtain ⟨rfl, rfl, rfl⟩ := he
      have hstand := hr.standing hL fun k₁ s' t' a' k₂ hk => hA k₁ s' t' a' k₂ hk
      cases hstand with
      | idle hI => simp at ht
      | @last s₁ cs p q s₀ hover ha hp =>
        obtain ⟨rfl, rfl⟩ := last_of_running hover ht
        exact ⟨q, s₀, ha, hp.1⟩

/-- What holds when no call is in progress any more: `Ψ` of the last one. -/
theorem Serial.at_rest {q : Req} {s₀ : σ} {t : ℕ} (hr : M.Serial tr c) (hL : Lasting M I A Φ Ψ)
    (hA : ∀ l₁ s t a l₂, tr = l₁ ++ ⟨s, .act t a⟩ :: l₂ → A (own t l₂) s a)
    (ha : (⟨s₀, .arrive t q⟩ : Entry Op Res Req σ) ∈ tr) (hlast : c.calls.length = t + 1)
    (hover : ∀ u, ¬ InProgress c u) : ∃ x, Ψ q s₀ (own t tr) c.store x := by
  have hstand := hr.standing hL hA
  cases hstand with
  | idle hI => simp at hlast
  | @last s cs p q' s₀' _ ha' hp =>
    obtain rfl : t = cs.length := by simpa using hlast.symm
    obtain ⟨rfl, rfl⟩ := hr.reach.arrival_unique ha ha'
    cases p with
    | ret a => exact ⟨_, hp.2⟩
    | raise e => exact ⟨_, hp.2⟩
    | call o k => exact absurd ⟨o, k, by simp⟩ (hover cs.length)

/-! ## Runs that are played -/

/-- The program is over. -/
def ended : Prog Op Res ε ρ → Bool
  | .call _ _ => false
  | _ => true

theorem not_inProgress_of_ended {c : Config Op Res ε ρ σ} (hall : c.calls.all ended = true) (t : ℕ) :
    ¬ InProgress c t := by
  rintro ⟨o, k, ht⟩
  have hended := List.all_eq_true.mp hall _ (List.mem_of_getElem? ht)
  simp [ended] at hended

/-- Play a list of choices, newest first, in which a call arrives only when the others are over. -/
def playSerial (M : Machine Op Res ε ρ Req σ Inp) :
    List (Move Req Inp) → Option (List (Entry Op Res Req σ) × Config Op Res ε ρ σ)
  | [] => some ([], ⟨M.init, []⟩)
  | .arrive q :: ms =>
    match playSerial M ms with
    | some (tr, c) =>
      if c.calls.all ended then
        some (⟨c.store, .arrive c.calls.length q⟩ :: tr, ⟨c.store, c.calls ++ [M.handler q]⟩)
      else none
    | none => none
  | .go t i :: ms =>
    match playSerial M ms with
    | some (tr, c) =>
      match c.calls[t]? with
      | some (.call o k) =>
        match M.exec i c.store o with
        | some (r, s) => some (⟨c.store, .act t ⟨o, r⟩⟩ :: tr, ⟨s, c.calls.set t (k r)⟩)
        | none => none
      | _ => none
    | none => none
  | _ => none

/-- What is played is a run. -/
theorem playSerial_serial {ms : List (Move Req Inp)} (h : M.playSerial ms = some (tr, c)) : M.Serial tr c := by
  induction ms generalizing tr c with
  | nil =>
    simp only [playSerial, Option.some.injEq, Prod.mk.injEq] at h
    obtain ⟨rfl, rfl⟩ := h
    exact .init
  | cons m ms ih =>
    cases m with
    | arrive q =>
      simp only [playSerial] at h
      split at h
      · rename_i tr₀ c₀ h₀
        split_ifs at h with hall
        simp only [Option.some.injEq, Prod.mk.injEq] at h
        obtain ⟨rfl, rfl⟩ := h
        exact .arrive q (ih h₀) (not_inProgress_of_ended hall)
      · simp at h
    | go t i =>
      simp only [playSerial] at h
      split at h
      · rename_i tr₀ c₀ h₀
        split at h
        · rename_i o k ht
          split at h
          · rename_i r s hx
            simp only [Option.some.injEq, Prod.mk.injEq] at h
            obtain ⟨rfl, rfl⟩ := h
            exact .act (ih h₀) ht hx
          · simp at h
        · simp at h
      · simp at h
    | fail t => simp [playSerial] at h
    | env i => simp [playSerial] at h

/-- A run with a property that can be computed, from the choices that lead to it. -/
theorem exists_of_playSerial (M : Machine Op Res ε ρ Req σ Inp) (ms : List (Move Req Inp))
    {p : List (Entry Op Res Req σ) × Config Op Res ε ρ σ → Bool} (h : (M.playSerial ms).any p = true) :
    ∃ tr c, M.Serial tr c ∧ p (tr, c) = true := by
  obtain ⟨⟨tr, c⟩, hplay, hp⟩ := (Option.any_eq_true _ _).mp h
  exact ⟨tr, c, playSerial_serial hplay, hp⟩

end Machine

end SdidBridge.Concurrent
