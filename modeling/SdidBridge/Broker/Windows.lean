import SdidBridge.Broker.Detections

/-!
# What a detection means

A detection of a pattern and a source says that as many events as it has counted happened within the window, and that
none was raised within the window before. Both are a matter of expiries. The flag of a detection lasts for the window
(`KeptUntil`). A counter lasts for the window from its creation, as long as its creator sets the expiry promptly
(`counted_of_live`). The set of a source is kept for a window from its newest member on: it has grown within the
window only if nobody comes upon it who finds an old member in it (`attempted_of_member`). With `δ` for the time that a
call may take, `detections_hold` puts the three together.
-/

namespace SdidBridge

open Concurrent Machine Prog

/-! ## The sets -/

/-- `anom:enrol:src:*`. -/
def sets (D : Deployment) : Object (broker D) SetOp SetOp.Res (List (Timed (List String))) :=
  part D (·.sets) (fun a => ⟨.set a.op, a.res⟩)
    (fun | ⟨.set o, r⟩ => some ⟨o, r⟩ | _ => none)
    fun s a s' => ∃ now, a.op.exec now s = (a.res, s')

/-- The key of a command. -/
def SetOp.key : SetOp → String
  | .sadd key _ => key
  | .expire key _ => key
  | .scard key => key

/-- What a command leaves of the sets. -/
theorem SetOp.exec_entries (now : Time) (es : List (Timed (List String))) (o : SetOp) :
    (o.exec now es).2 = es ∨ ∃ ms x, (o.exec now es).2 = ⟨o.key, ms, x⟩ :: without o.key es := by
  cases o with
  | sadd key m => exact .inr ⟨_, _, rfl⟩
  | expire key seconds =>
    simp only [exec]
    cases lookup now key es with
    | none => exact .inl rfl
    | some ms => exact .inr ⟨ms, _, rfl⟩
  | scard key => exact .inl rfl

/-- A command leaves different sets under different keys. -/
theorem sets_step_nodup {D : Deployment} {x x' : List (Timed (List String))} {a : Act SetOp SetOp.Res}
    (hs : (sets D).Step x a x') (hn : (x.map (·.key)).Nodup) : (x'.map (·.key)).Nodup := by
  obtain ⟨o, r⟩ := a
  rcases hs with ⟨now, hexec⟩ | ⟨-, rfl⟩
  · have hx' : x' = (o.exec now x).2 := by rw [hexec]
    rcases o.exec_entries now x with h | ⟨ms, expiry, h⟩
    · rwa [hx', h]
    · have hwithout : ((without o.key x).map (·.key)).Nodup := hn.sublist (List.filter_sublist.map _)
      rw [hx', h, List.map_cons, List.nodup_cons]
      refine ⟨?_, hwithout⟩
      simp [without]
  · exact hn

section Sets

variable {D : Deployment} {Req ρ : Type} {handle : Req → H ρ} {tr : List (Entry Op Op.Res Req Store)}
  {c : Config Op Op.Res Failure ρ Store} {s s' : Store} {t : ℕ} {key : String}

/-- The members of the set under a key. -/
def membersAt (s : Store) (key : String) : List String := (lookup s.now key s.sets).getD []

/-- The sets, under any handlers. -/
abbrev servedSets (D : Deployment) (handle : Req → H ρ) :
    Object (served D handle) SetOp SetOp.Res (List (Timed (List String))) :=
  (sets D).onMachine (served D handle) (served_exec D handle) (served_env D handle)

theorem servedSets_nodup (hr : (served D handle).Reach tr c) : (c.store.sets.map (·.key)).Nodup :=
  (servedSets D handle).invariant (P := fun x => (x.map Timed.key).Nodup) List.nodup_nil
    (fun _ _ _ hs => sets_step_nodup (D := D) hs) hr

/-- What a command does to the sets. -/
theorem leads_set {o : SetOp} {r : Option o.Res} (hl : (served D handle).Leads ⟨s, .act t ⟨.set o, r⟩⟩ s') :
    (r = none ∧ s' = s) ∨ (o.exec s.now s.sets = (r, s'.sets) ∧ s'.now = s.now) := by
  rcases hl with ⟨i, hx⟩ | ⟨hnone, -, rfl⟩
  · simp only [served, Op.exec, Option.some.injEq, Prod.mk.injEq] at hx
    obtain ⟨rfl, rfl⟩ := hx
    exact .inr ⟨rfl, rfl⟩
  · exact .inl ⟨hnone, rfl⟩

/-- A member is added to what is there. -/
theorem membersAt_sadd {nid : String}
    (hl : (served D handle).Leads ⟨s, .act t ⟨.set (.sadd key nid), some ()⟩⟩ s') :
    membersAt s' key = (membersAt s key).insert nid := by
  rcases leads_set hl with ⟨hnone, -⟩ | ⟨hexec, hnow⟩
  · cases hnone
  simp only [SetOp.exec, Prod.mk.injEq] at hexec
  unfold membersAt
  rw [hnow, ← hexec.2, lookup_eq_liveEntry, expiryOf_eq_liveEntry, lookup_eq_liveEntry]
  have hexpiry : ((liveEntry s.now key s.sets).bind (·.expiresAt)).all (s.now < ·) = true := by
    cases hlive : liveEntry s.now key s.sets with
    | none => rfl
    | some e =>
      have hall := List.find?_some hlive
      simp only [Bool.and_eq_true] at hall
      exact hall.2
  rw [liveEntry_written hexpiry]
  simp [List.insert]

/-- A count is that of the members. -/
theorem membersAt_scard {n : ℕ} (hl : (served D handle).Leads ⟨s, .act t ⟨.set (.scard key), some n⟩⟩ s') :
    n = (membersAt s key).length := by
  rcases leads_set hl with ⟨hnone, -⟩ | ⟨hexec, -⟩
  · cases hnone
  simp only [SetOp.exec, Prod.mk.injEq, Option.some.injEq] at hexec
  exact hexec.1.symm

/-- Whatever else happens, a set stays as it is or is gone. -/
theorem membersAt_keep {e : Entry Op Op.Res Req Store} (hn : (e.before.sets.map (·.key)).Nodup)
    (hl : (served D handle).Leads e s') (hev : ∀ t nid, e.event ≠ .act t ⟨.set (.sadd key nid), some ()⟩) :
    membersAt s' key = membersAt e.before key ∨ membersAt s' key = [] := by
  obtain ⟨s, ev⟩ := e
  have hsame : s'.now = s.now → s'.sets = s.sets → membersAt s' key = membersAt s key := by
    intro hnow hsets
    unfold membersAt
    rw [hnow, hsets]
  cases ev with
  | arrive t q =>
    obtain rfl : s' = s := hl
    exact .inl rfl
  | env =>
    obtain ⟨i, hi⟩ := hl
    simp only [served, Store.elapse] at hi
    split at hi
    swap
    · simp at hi
    obtain rfl := Option.some.inj hi
    rename_i ms
    change (lookup (s.now + ms) key s.sets).getD [] = (lookup s.now key s.sets).getD [] ∨
      (lookup (s.now + ms) key s.sets).getD [] = []
    rw [lookup_eq_liveEntry, lookup_eq_liveEntry]
    rcases liveEntry_later key hn (Nat.le_add_right s.now ms) with hlater | ⟨hnone, -⟩
    · rw [hlater]
      exact .inl rfl
    · rw [hnone]
      exact .inr rfl
  | act t a =>
    have hnow : s'.now = s.now := leads_act_now hl
    obtain ⟨o, r⟩ := a
    rcases (servedSets D handle).leads hl with ⟨t', ⟨o', r'⟩, heq, -⟩ | ⟨-, hsets⟩
    swap
    · exact .inl (hsame hnow hsets)
    simp only [Event.act.injEq] at heq
    obtain ⟨rfl, heq⟩ := heq
    cases heq
    rcases leads_set hl with ⟨-, rfl⟩ | ⟨hexec, -⟩
    · exact .inl rfl
    -- the command is one of another key, or does not change the members
    cases o' with
    | sadd key' nid =>
      simp only [SetOp.exec, Prod.mk.injEq] at hexec
      obtain ⟨rfl, hsets⟩ := hexec
      have hkey : key ≠ key' := by
        rintro rfl
        exact hev t nid rfl
      unfold membersAt
      rw [hnow, ← hsets, lookup_eq_liveEntry, liveEntry_set hkey, lookup_eq_liveEntry]
      exact .inl rfl
    | expire key' seconds =>
      simp only [SetOp.exec] at hexec
      split at hexec <;> simp only [Prod.mk.injEq] at hexec <;> obtain ⟨-, hsets⟩ := hexec
      swap
      · exact .inl (hsame hnow hsets.symm)
      rename_i ms hms
      unfold membersAt
      rw [hnow, ← hsets]
      by_cases hkey : key = key'
      · subst hkey
        rw [hms, lookup_eq_liveEntry]
        cases hdeadline : (some (s.now + seconds * 1000)).all (s.now < ·) with
        | true =>
          rw [liveEntry_written hdeadline]
          exact .inl rfl
        | false =>
          rw [liveEntry_written_expired hdeadline]
          exact .inr rfl
      · rw [lookup_eq_liveEntry, liveEntry_set hkey, lookup_eq_liveEntry]
        exact .inl rfl
    | scard key' =>
      simp only [SetOp.exec, Prod.mk.injEq] at hexec
      exact .inl (hsame hnow hexec.2.symm)

/-- The members of a set are different. -/
theorem membersAt_nodup (hr : (served D handle).Reach tr c) : (membersAt c.store key).Nodup := by
  induction hr with
  | init => exact List.nodup_nil
  | @step tr c m ev c' hr hs ih =>
    have hl := step_leads hs
    by_cases hev : ∃ t nid, ev = .act t ⟨.set (.sadd key nid), some ()⟩
    · obtain ⟨t, nid, rfl⟩ := hev
      rw [membersAt_sadd hl]
      exact ih.insert
    · rcases membersAt_keep (servedSets_nodup hr) hl fun t nid heq => hev ⟨t, nid, heq⟩ with hsame | hnil
      · rw [hsame]
        exact ih
      · rw [hnil]
        exact List.nodup_nil

end Sets

/-! ## Runs -/

section Runs

variable {D : Deployment} {tr l₁ l₂ : List (Entry Op Op.Res RecordedEvent Store)}
  {c : Config Op Op.Res Failure Unit Store} {s s₀ : Store} {t u δ : ℕ} {pattern : AnomalyPattern} {source key : String}
  {q : RecordedEvent} {a : Cmd}

/-- No command fails. -/
def NoneFails (tr : List (Entry Op Op.Res RecordedEvent Store)) : Prop :=
  ∀ e ∈ tr, ∀ t o, e.event ≠ .act t ⟨o, none⟩

/-- No event is still being recorded more than `δ` milliseconds after it was told. -/
def Prompt (D : Deployment) (δ : ℕ) (tr : List (Entry Op Op.Res RecordedEvent Store)) : Prop :=
  ∀ l₁ e l₂ c, tr = l₁ ++ e :: l₂ → (detector D).Reach l₂ c → ∀ t, InProgress c t →
    ∀ s₀ q, ⟨s₀, .arrive t q⟩ ∈ l₂ → e.before.now ≤ s₀.now + δ

/-- A pseudonym was tried to be enrolled from a source. -/
def AttemptedAt (D : Deployment) (tr : List (Entry Op Op.Res RecordedEvent Store)) (source nid : String)
    (time : Time) : Prop :=
  ∃ s t ip, ⟨s, .arrive t (.enrolmentAttempt ip nid)⟩ ∈ tr ∧ D.sourceHandle ip = source ∧ s.now = time

/-- Who adds to the set of a source, so that it reaches the threshold, finds no member in it that was last tried more
than a window ago. -/
def FindsFresh (D : Deployment) (tr : List (Entry Op Op.Res RecordedEvent Store)) : Prop :=
  ∀ l₁ s t source nid l₂, tr = l₁ ++ ⟨s, .act t ⟨.set (.sadd (enrolKey source) nid), some ()⟩⟩ :: l₂ →
    D.config.threshold .enrolmentProbing ≤ ((membersAt s (enrolKey source)).insert nid).length →
    ∀ m ∈ membersAt s (enrolKey source), m ≠ nid →
      ∃ time, AttemptedAt D l₂ source m time ∧ s.now ≤ time + D.config.windowSeconds .enrolmentProbing * 1000

theorem AttemptedAt.mono {nid : String} {time : Time} (h : AttemptedAt D l₂ source nid time) (hl : l₂ ⊆ l₁) :
    AttemptedAt D l₁ source nid time := by
  obtain ⟨s, t, ip, hmem, hsource, htime⟩ := h
  exact ⟨s, t, ip, hl hmem, hsource, htime⟩

theorem NoneFails.suffix (h : NoneFails l₁) (hl : l₂ <:+ l₁) : NoneFails l₂ := fun e he => h e (hl.subset he)

theorem Prompt.suffix (h : Prompt D δ l₁) (hl : l₂ <:+ l₁) : Prompt D δ l₂ := by
  obtain ⟨k, rfl⟩ := hl
  intro m₁ e m₂ c htr
  exact h (k ++ m₁) e m₂ c (by rw [htr, List.append_assoc])

theorem Prompt.newest {e : Entry Op Op.Res RecordedEvent Store} (h : Prompt D δ (e :: tr)) : Prompt D δ ([] ++ e :: tr) := h

theorem FindsFresh.suffix (h : FindsFresh D l₁) (hl : l₂ <:+ l₁) : FindsFresh D l₂ := by
  obtain ⟨k, rfl⟩ := hl
  intro m₁ s t source nid m₂ htr
  exact h (k ++ m₁) s t source nid m₂ (by rw [htr, List.append_assoc])

/-- What precedes a command of a run. -/
theorem records_at (hr : (detector D).Reach (l₁ ++ ⟨s, .act t a⟩ :: l₂) c) :
    ∃ q s₀, ⟨s₀, .arrive t q⟩ ∈ l₂ ∧ RecordsOn D q (own t l₂) a.op ∧ DatesNext (own t l₂) a.op := by
  obtain ⟨q, ⟨⟨s₀, ev⟩, hmem, rfl⟩, hpath⟩ := hr.act_along record_paths
  exact ⟨q, s₀, hmem, hpath⟩

/-- A command is executed by a call that is in progress. -/
theorem inProgress_of_act (hr : (detector D).Reach (l₁ ++ ⟨s, .act t a⟩ :: l₂) c) :
    ∃ c₀, (detector D).Reach l₂ c₀ ∧ c₀.store = s ∧ InProgress c₀ t := by
  obtain ⟨c₀, m, c₁, hr₀, hstore, hs⟩ := hr.entry
  refine ⟨c₀, hr₀, hstore, ?_⟩
  rcases step_calls hs with ⟨q, heq, -⟩ | ⟨t', o, k, r, heq, hcall, -⟩ | ⟨heq, -⟩
  · cases heq
  · cases heq
    exact ⟨o, k, hcall⟩
  · cases heq

/-- A command is executed within `δ` of its event, and not before it. -/
theorem Prompt.act (hp : Prompt D δ (l₁ ++ ⟨s, .act t a⟩ :: l₂))
    (hr : (detector D).Reach (l₁ ++ ⟨s, .act t a⟩ :: l₂) c) (harrived : ⟨s₀, .arrive t q⟩ ∈ l₂) :
    s.now ≤ s₀.now + δ ∧ s₀.now ≤ s.now := by
  obtain ⟨c₀, hr₀, rfl, hprogress⟩ := inProgress_of_act hr
  exact ⟨hp l₁ _ l₂ c₀ rfl hr₀ t hprogress s₀ q harrived, now_later hr₀ harrived⟩

/-- A call that has created a counter is in progress. -/
theorem inProgress_of_creating (hr : (detector D).Reach tr c) (harrived : Arrived tr t q) (hc : Creating key tr t) :
    InProgress c t := by
  obtain ⟨p, hp⟩ : ∃ p, c.calls[t]? = some p := ⟨_, List.getElem?_eq_getElem (hr.arrived_lt harrived)⟩
  obtain ⟨q', -, hres⟩ := hr.residue hp
  have hend := hres.along (record_paths (D := D) q')
  unfold Creating at hc
  rw [hc] at hend
  cases p with
  | ret v => exact absurd rfl (hend key)
  | raise e => exact absurd rfl (hend key)
  | call o k => exact ⟨o, k, hp⟩

/-- The counters are counted in windows. -/
theorem record_windows (key : String) (q : RecordedEvent) :
    Along (WindowOnPath key) (fun _ _ => True) [] (recordEvent D q) := by
  refine Along.mono (record_paths q) (fun h o hpath => ?_) fun _ _ _ => trivial
  obtain ⟨hpath, -⟩ := hpath
  cases o with
  | counter o =>
    cases o with
    | incr key' => exact fun _ => hpath.1
    | expire key' seconds =>
      rintro rfl
      exact hpath.1
    | get key' => trivial
    | del key' => exact absurd hpath id
  | _ => trivial

/-! ## Counters -/

/-- A counter that is counted since `began`: by which calls, and until when. -/
structure Counted (D : Deployment) (δ : ℕ) (tr : List (Entry Op Op.Res RecordedEvent Store)) (now : Time)
    (pattern : AnomalyPattern) (source : String) (e : Timed ℕ) (began : Time) (calls : List ℕ) : Prop where
  begun : began ≤ now
  nodup : calls.Nodup
  length : calls.length = e.value
  did : ∀ u ∈ calls, ∃ a, Did tr u a
  arrived : ∀ u ∈ calls, ∃ s q, ⟨s, .arrive u q⟩ ∈ tr ∧ q.signal D = some (pattern, source) ∧ began ≤ s.now + δ
  /-- A counter expires a window after its creator has set the expiry. -/
  dated : ∀ deadline, e.expiresAt = some deadline → deadline ≤ began + δ + D.config.windowSeconds pattern * 1000
  /-- Otherwise its creator is about to. -/
  undated : e.expiresAt = none → ∃ u s q, Creating (countKey pattern source) tr u ∧ ⟨s, .arrive u q⟩ ∈ tr ∧ s.now ≤ began

/-- An increment is that of an event of the pattern and the source, and the first command of its call. -/
theorem increment_at {n : ℕ}
    (hr : (detector D).Reach (l₁ ++ ⟨s, .act t ⟨.counter (.incr (countKey pattern source)), some n⟩⟩ :: l₂) c) :
    own t l₂ = [] ∧ ∃ s₀ q, ⟨s₀, .arrive t q⟩ ∈ l₂ ∧ q.signal D = some (pattern, source) := by
  obtain ⟨q, s₀, harrived, ⟨hnil, pattern', source', hsignal, -, hkey⟩, -⟩ := records_at hr
  obtain ⟨rfl, rfl⟩ := countKey_inj hkey
  exact ⟨hnil, s₀, q, harrived, hsignal⟩

/-- The counter that an increment creates. -/
theorem Counted.create
    (hr : (detector D).Reach (⟨s, .act t ⟨.counter (.incr (countKey pattern source)), some (1 : ℕ)⟩⟩ :: tr) c)
    (hp : Prompt D δ (⟨s, .act t ⟨.counter (.incr (countKey pattern source)), some (1 : ℕ)⟩⟩ :: tr)) :
    Counted D δ (⟨s, .act t ⟨.counter (.incr (countKey pattern source)), some (1 : ℕ)⟩⟩ :: tr) s.now pattern source
      ⟨countKey pattern source, 1, none⟩ s.now [t] := by
  obtain ⟨hnil, s₀, q, harrived, hsignal⟩ := increment_at hr.newest
  have harrived' := List.mem_cons_of_mem
    (⟨s, .act t ⟨.counter (.incr (countKey pattern source)), some (1 : ℕ)⟩⟩ : Entry Op Op.Res RecordedEvent Store) harrived
  obtain ⟨hprompt, hle⟩ := hp.newest.act hr.newest harrived
  have hcreating : Creating (countKey pattern source)
      (⟨s, .act t ⟨.counter (.incr (countKey pattern source)), some (1 : ℕ)⟩⟩ :: tr) t := by
    unfold Creating
    rw [own_cons_self, hnil]
  refine ⟨le_rfl, List.nodup_singleton t, rfl, fun u hu => ?_, fun u hu => ?_, fun d hd => by simp at hd, fun _ => ?_⟩
  · rw [List.mem_singleton.mp hu]
    exact ⟨_, _, List.mem_cons_self, rfl⟩
  · rw [List.mem_singleton.mp hu]
    exact ⟨s₀, q, harrived', hsignal, hprompt⟩
  · exact ⟨t, s₀, q, hcreating, harrived', hle⟩

/-- Another increment. -/
theorem Counted.count {e : Timed ℕ} {n : ℕ} {began : Time} {calls : List ℕ}
    (hr : (detector D).Reach (⟨s, .act t ⟨.counter (.incr (countKey pattern source)), some n⟩⟩ :: tr) c)
    (hp : Prompt D δ (⟨s, .act t ⟨.counter (.incr (countKey pattern source)), some n⟩⟩ :: tr))
    (hc : Counted D δ tr s.now pattern source e began calls) :
    Counted D δ (⟨s, .act t ⟨.counter (.incr (countKey pattern source)), some n⟩⟩ :: tr) s.now pattern source
      { e with value := e.value + 1 } began (t :: calls) := by
  obtain ⟨hnil, s₀, q, harrived, hsignal⟩ := increment_at hr.newest
  obtain ⟨hprompt, -⟩ := hp.newest.act hr.newest harrived
  have hsub : tr ⊆ (⟨s, .act t ⟨.counter (.incr (countKey pattern source)), some n⟩⟩ :
      Entry Op Op.Res RecordedEvent Store) :: tr := List.subset_cons_self _ _
  -- the call has not counted before: this is its first command
  have hnew : ∀ u a, Did tr u a → u ≠ t := by
    rintro u a hd rfl
    have hmem := mem_own.mpr hd
    rw [hnil] at hmem
    cases hmem
  refine ⟨hc.begun, List.nodup_cons.mpr ⟨fun hmem => ?_, hc.nodup⟩, by simp [hc.length], ?_, ?_, hc.dated, fun hx => ?_⟩
  · obtain ⟨a, hd⟩ := hc.did t hmem
    exact hnew t a hd rfl
  · intro u hu
    rcases List.mem_cons.mp hu with rfl | hu
    · exact ⟨_, _, List.mem_cons_self, rfl⟩
    · obtain ⟨a, hd⟩ := hc.did u hu
      exact ⟨a, hd.mono hsub⟩
  · intro u hu
    rcases List.mem_cons.mp hu with rfl | hu
    · exact ⟨s₀, q, hsub harrived, hsignal, hc.begun.trans hprompt⟩
    · obtain ⟨s₁, q₁, harrived₁, hsignal₁, hbegan₁⟩ := hc.arrived u hu
      exact ⟨s₁, q₁, hsub harrived₁, hsignal₁, hbegan₁⟩
  · obtain ⟨u, s₁, q₁, hcreating, harrived₁, hle⟩ := hc.undated hx
    have hne : u ≠ t := by
      apply hnew u ⟨.counter (.incr (countKey pattern source)), some (1 : ℕ)⟩
      rw [← mem_own, show own u tr = _ from hcreating]
      exact List.mem_cons_self
    refine ⟨u, s₁, q₁, ?_, hsub harrived₁, hle⟩
    unfold Creating
    rw [own_cons_of_ne (by simp [Ne.symm hne])]
    exact hcreating

/-- Other events, as time passes. -/
theorem Counted.keep {e : Timed ℕ} {began now now' : Time} {calls : List ℕ} {entry : Entry Op Op.Res RecordedEvent Store}
    (hc : Counted D δ tr now pattern source e began calls) (hnow : now ≤ now')
    (hother : e.expiresAt = none → ∀ u, Creating (countKey pattern source) tr u → ∀ a, entry.event ≠ .act u a) :
    Counted D δ (entry :: tr) now' pattern source e began calls := by
  have hsub : tr ⊆ entry :: tr := List.subset_cons_self _ _
  refine ⟨hc.begun.trans hnow, hc.nodup, hc.length, fun u hu => ?_, fun u hu => ?_, hc.dated, fun hx => ?_⟩
  · obtain ⟨a, hd⟩ := hc.did u hu
    exact ⟨a, hd.mono hsub⟩
  · obtain ⟨s₁, q₁, harrived, hsignal, hbegan⟩ := hc.arrived u hu
    exact ⟨s₁, q₁, hsub harrived, hsignal, hbegan⟩
  · obtain ⟨u, s₁, q₁, hcreating, harrived, hle⟩ := hc.undated hx
    refine ⟨u, s₁, q₁, ?_, hsub harrived, hle⟩
    unfold Creating
    rw [own_cons_of_ne (hother hx u hcreating)]
    exact hcreating

/-- The deadline that an expiry sets. -/
theorem deadline_of_expire {s' : Store} {seconds : ℕ} {e : Timed ℕ}
    (hl : (detector D).Leads ⟨s, .act t ⟨.counter (.expire key seconds), some ()⟩⟩ s')
    (hlive : counterAt s' key = some e) : e.expiresAt = some (s.now + seconds * 1000) := by
  rcases hl with ⟨i, hx⟩ | ⟨hnone, -, -⟩
  swap
  · cases hnone
  simp only [served, Op.exec, Option.some.injEq, Prod.mk.injEq] at hx
  obtain ⟨-, rfl⟩ := hx
  change liveEntry s.now key (CounterOp.exec s.now s.counters (.expire key seconds)).2 = some e at hlive
  simp only [CounterOp.exec] at hlive
  split at hlive
  · cases hdeadline : (some (s.now + seconds * 1000)).all (s.now < ·) with
    | true =>
      rw [liveEntry_written hdeadline] at hlive
      rw [← Option.some.inj hlive]
    | false =>
      rw [liveEntry_written_expired hdeadline] at hlive
      cases hlive
  · rename_i hnone
    rw [lookup_eq_liveEntry, Option.map_eq_none_iff] at hnone
    rw [hnone] at hlive
    cases hlive

/-- Every counter has been counted since some time. -/
theorem counted_of_live (hr : (detector D).Reach tr c) (hfail : NoneFails tr) (hp : Prompt D δ tr) {e : Timed ℕ}
    (hlive : counterAt c.store (countKey pattern source) = some e) :
    ∃ began calls, Counted D δ tr c.store.now pattern source e began calls := by
  induction hr generalizing e with
  | init => simp [counterAt, liveEntry, served, Store.empty] at hlive
  | @step tr c m ev c' hr hs ih =>
    have hr' := Reach.step hr hs
    have hl := step_leads hs
    have hnow : c.store.now ≤ c'.store.now := leads_now hl
    have hstep := counterStep (countKey pattern source) (servedCounters_nodup hr) hl
    generalize hbefore : counterAt (Entry.mk c.store ev).before (countKey pattern source) = x at hstep
    generalize hafter : counterAt c'.store (countKey pattern source) = y at hstep
    rw [hafter] at hlive
    subst hlive
    cases hstep with
    | create t =>
      have hclock : c'.store.now = c.store.now := leads_act_now hl
      rw [hclock]
      exact ⟨_, _, Counted.create hr' hp⟩
    | count t e =>
      have hclock : c'.store.now = c.store.now := leads_act_now hl
      obtain ⟨began, calls, hc⟩ := ih (hfail.suffix (List.suffix_cons _ _)) (hp.suffix (List.suffix_cons _ _)) hbefore
      rw [hclock]
      exact ⟨_, _, hc.count hr' hp⟩
    | date t seconds e deadline =>
      obtain ⟨began, calls, hc⟩ := ih (hfail.suffix (List.suffix_cons _ _)) (hp.suffix (List.suffix_cons _ _)) hbefore
      -- the expiry is set by the creator, which is the only one
      obtain ⟨q, s₀, harrived, ⟨hown, pattern', source', hkey, hseconds⟩, -⟩ := records_at hr'.newest
      obtain ⟨rfl, rfl⟩ := countKey_inj hkey
      obtain ⟨⟨e₀, hlive₀, hundated⟩, honly⟩ := undated_of_creating (record_windows _) hr (show Creating _ _ t from hown)
      obtain rfl : e₀ = e := Option.some.inj (hlive₀.symm.trans hbefore)
      obtain ⟨u, s₁, q₁, hcreating, harrived₁, hle⟩ := hc.undated hundated
      obtain rfl := honly u hcreating
      obtain ⟨hprompt, -⟩ := hp.newest.act hr'.newest harrived₁
      have hdeadline : some deadline = some (c.store.now + seconds * 1000) := deadline_of_expire hl hafter
      have hbound : deadline ≤ began + δ + D.config.windowSeconds pattern * 1000 := by
        calc deadline = c.store.now + seconds * 1000 := Option.some.inj hdeadline
          _ = c.store.now + D.config.windowSeconds pattern * 1000 := by rw [hseconds]
          _ ≤ began + δ + D.config.windowSeconds pattern * 1000 :=
            Nat.add_le_add_right (hprompt.trans (Nat.add_le_add_right hle δ)) _
      have hdated : Counted D δ tr c.store.now pattern source { e₀ with expiresAt := some deadline } began calls := by
        refine ⟨hc.begun, hc.nodup, hc.length, hc.did, hc.arrived, fun d hd => ?_, fun hx => by cases hx⟩
        obtain rfl := Option.some.inj hd
        exact hbound
      exact ⟨began, calls, hdated.keep hnow fun hx => by cases hx⟩
    | keep x _ hev =>
      obtain ⟨began, calls, hc⟩ := ih (hfail.suffix (List.suffix_cons _ _)) (hp.suffix (List.suffix_cons _ _)) hbefore
      refine ⟨began, calls, hc.keep hnow fun hx u hcreating a hact => ?_⟩
      -- the next command of the creator sets the expiry
      simp only at hact
      subst hact
      obtain ⟨-, -, -, -, hdates⟩ := records_at hr'.newest
      obtain ⟨seconds, hop⟩ := hdates _ hcreating
      obtain ⟨o, r⟩ := a
      simp only at hop
      subst hop
      cases r with
      | none => exact hfail _ List.mem_cons_self u _ rfl
      | some r => exact hev rfl

/-- A counter that is live has been counted for a window and two delays at most. -/
theorem Counted.recent {e : Timed ℕ} {began : Time} {calls : List ℕ} {ev : Event Op Op.Res RecordedEvent}
    (hr : (detector D).Reach tr c) (hp : Prompt D δ (⟨c.store, ev⟩ :: tr))
    (hlive : counterAt c.store (countKey pattern source) = some e)
    (hc : Counted D δ tr c.store.now pattern source e began calls) :
    c.store.now ≤ began + δ + D.config.windowSeconds pattern * 1000 := by
  cases hx : e.expiresAt with
  | some deadline =>
    have hall := List.find?_some hlive
    simp only [Bool.and_eq_true, hx, Option.all_some, decide_eq_true_eq] at hall
    exact hall.2.le.trans (hc.dated deadline hx)
  | none =>
    obtain ⟨u, s₁, q₁, hcreating, harrived, hle⟩ := hc.undated hx
    have hprogress := inProgress_of_creating hr ⟨_, harrived, rfl⟩ hcreating
    have hprompt : c.store.now ≤ s₁.now + δ := hp [] _ tr c rfl hr u hprogress s₁ q₁ harrived
    calc c.store.now ≤ s₁.now + δ := hprompt
      _ ≤ began + δ := Nat.add_le_add_right hle δ
      _ ≤ began + δ + D.config.windowSeconds pattern * 1000 := Nat.le_add_right _ _

/-! ## What was seen -/

/-- So many events of a pattern from a source happened within a span before a time. Enrolment attempts are counted by
their pseudonyms. -/
def Seen (D : Deployment) (tr : List (Entry Op Op.Res RecordedEvent Store)) (pattern : AnomalyPattern) (source : String)
    (n : ℕ) (time : Time) (span : ℕ) : Prop :=
  if pattern = .enrolmentProbing then
    ∃ nids : Finset String, n ≤ nids.card ∧
      ∀ nid ∈ nids, ∃ since, AttemptedAt D tr source nid since ∧ time ≤ since + span
  else
    ∃ calls : Finset ℕ, n ≤ calls.card ∧
      ∀ u ∈ calls, ∃ s q, ⟨s, .arrive u q⟩ ∈ tr ∧ q.signal D = some (pattern, source) ∧ time ≤ s.now + span

/-- A call executes its commands within `δ`. -/
theorem Prompt.later {s' : Store} {a' : Cmd} (hp : Prompt D δ (l₁ ++ ⟨s, .act t a⟩ :: l₂))
    (hr : (detector D).Reach (l₁ ++ ⟨s, .act t a⟩ :: l₂) c) (hmem : ⟨s', .act t a'⟩ ∈ l₂) : s.now ≤ s'.now + δ := by
  obtain ⟨m₁, m₂, rfl⟩ := List.append_of_mem hmem
  obtain ⟨c₀, hr₀, -, -⟩ := inProgress_of_act hr
  obtain ⟨c₁, hr₁, hstore, -⟩ := inProgress_of_act hr₀
  obtain ⟨q, s₀, harrived, -⟩ := records_at hr₀
  obtain ⟨hprompt, -⟩ := hp.act hr (List.mem_append_right m₁ (List.mem_cons_of_mem _ harrived))
  have hle : s₀.now ≤ c₁.store.now := now_later hr₁ harrived
  rw [hstore] at hle
  exact hprompt.trans (Nat.add_le_add_right hle δ)

/-- What has been counted at an increment. -/
theorem seen_of_increment {n : ℕ}
    (hr : (detector D).Reach (⟨s, .act t ⟨.counter (.incr (countKey pattern source)), some n⟩⟩ :: l₂) c)
    (hfail : NoneFails (⟨s, .act t ⟨.counter (.incr (countKey pattern source)), some n⟩⟩ :: l₂))
    (hp : Prompt D δ (⟨s, .act t ⟨.counter (.incr (countKey pattern source)), some n⟩⟩ :: l₂)) :
    ∃ calls : Finset ℕ, n ≤ calls.card ∧
      ∀ u ∈ calls, ∃ s₁ q, ⟨s₁, .arrive u q⟩ ∈
          (⟨s, .act t ⟨.counter (.incr (countKey pattern source)), some n⟩⟩ ::
            l₂ : List (Entry Op Op.Res RecordedEvent Store)) ∧
        q.signal D = some (pattern, source) ∧
          s.now ≤ s₁.now + (D.config.windowSeconds pattern * 1000 + 2 * δ) := by
  obtain ⟨c₀, m, c₁, hr₀, hstore, hs⟩ := hr.newest.entry
  subst hstore
  have hcounted : ∃ e' began calls, e'.value = n ∧
      Counted D δ (⟨c₀.store, .act t ⟨.counter (.incr (countKey pattern source)), some n⟩⟩ :: l₂) c₀.store.now pattern source
        e' began calls ∧ c₀.store.now ≤ began + δ + D.config.windowSeconds pattern * 1000 := by
    have hstep := counterStep (countKey pattern source) (servedCounters_nodup hr₀) (step_leads hs)
    rcases hstep.incr_inv with ⟨-, rfl, -⟩ | ⟨e, hlive, rfl, -⟩
    · exact ⟨_, _, _, rfl, Counted.create hr hp, by rw [Nat.add_assoc]; exact Nat.le_add_right _ _⟩
    · obtain ⟨began, calls, hc⟩ := counted_of_live hr₀ (hfail.suffix (List.suffix_cons _ _)) (hp.suffix (List.suffix_cons _ _)) hlive
      exact ⟨_, began, _, rfl, hc.count hr hp, hc.recent hr₀ hp hlive⟩
  obtain ⟨e', began, calls, rfl, hc, hrecent⟩ := hcounted
  refine ⟨calls.toFinset, ?_, fun u hu => ?_⟩
  · rw [List.toFinset_card_of_nodup hc.nodup, hc.length]
  · obtain ⟨s₁, q, harrived, hsignal, hbegan⟩ := hc.arrived u (List.mem_toFinset.mp hu)
    refine ⟨s₁, q, harrived, hsignal, ?_⟩
    calc c₀.store.now ≤ began + δ + D.config.windowSeconds pattern * 1000 := hrecent
      _ ≤ s₁.now + δ + δ + D.config.windowSeconds pattern * 1000 :=
        Nat.add_le_add_right (Nat.add_le_add_right hbegan δ) _
      _ = s₁.now + (D.config.windowSeconds pattern * 1000 + 2 * δ) := by ring

/-- The members of a set that has reached the threshold were tried within the window before the newest of them. -/
theorem attempted_of_member (hr : (detector D).Reach tr c) (hp : Prompt D δ tr) (hfresh : FindsFresh D tr)
    (hthreshold : D.config.threshold .enrolmentProbing ≤ (membersAt c.store (enrolKey source)).length) :
    ∃ last : Time, (∀ nid ∈ membersAt c.store (enrolKey source), ∃ since, AttemptedAt D tr source nid since ∧
        last ≤ since + (D.config.windowSeconds .enrolmentProbing * 1000 + δ)) ∧
      ∀ s t nid, ⟨s, .act t ⟨.set (.sadd (enrolKey source) nid), some ()⟩⟩ ∈ tr → s.now ≤ last := by
  induction hr with
  | init => exact ⟨0, fun nid hnid => absurd hnid List.not_mem_nil, fun s t nid hmem => absurd hmem List.not_mem_nil⟩
  | @step tr c m ev c' hr hs ih =>
    have hr' := Reach.step hr hs
    have hl := step_leads hs
    have hsub : tr ⊆ (⟨c.store, ev⟩ : Entry Op Op.Res RecordedEvent Store) :: tr := List.subset_cons_self _ _
    by_cases hev : ∃ t nid, ev = .act t ⟨.set (.sadd (enrolKey source) nid), some ()⟩
    · obtain ⟨t, nid, rfl⟩ := hev
      rw [membersAt_sadd hl] at hthreshold ⊢
      refine ⟨c.store.now, fun m hm => ?_, fun s u nid' hmem => ?_⟩
      · by_cases hself : m = nid
        · -- the newest member is that of this very call
          subst hself
          obtain ⟨q, s₀, harrived, ⟨ip, rfl, hkey⟩, -⟩ := records_at hr'.newest
          obtain ⟨hprompt, -⟩ := hp.newest.act hr'.newest harrived
          refine ⟨s₀.now, ⟨s₀, t, ip, hsub harrived, (enrolKey_inj hkey).symm, rfl⟩, hprompt.trans ?_⟩
          exact Nat.add_le_add_left (Nat.le_add_left _ _) _
        · have hold : m ∈ membersAt c.store (enrolKey source) := (List.mem_insert_iff.mp hm).resolve_left hself
          obtain ⟨since, hattempt, hwindow⟩ := hfresh [] _ t source nid tr rfl hthreshold m hold hself
          exact ⟨since, hattempt.mono hsub, hwindow.trans (Nat.add_le_add_left (Nat.le_add_right _ _) _)⟩
      · rcases List.mem_cons.mp hmem with heq | hmem
        · rw [(Entry.mk.inj heq).1]
        · exact now_later hr hmem
    · rcases membersAt_keep (servedSets_nodup hr) hl fun t nid heq => hev ⟨t, nid, heq⟩ with hsame | hnil
      · rw [hsame] at hthreshold ⊢
        obtain ⟨last, hmembers, hlast⟩ := ih (hp.suffix (List.suffix_cons _ _)) (hfresh.suffix (List.suffix_cons _ _)) hthreshold
        refine ⟨last, fun nid hnid => ?_, fun s t nid hmem => ?_⟩
        · obtain ⟨since, hattempt, hwindow⟩ := hmembers nid hnid
          exact ⟨since, hattempt.mono hsub, hwindow⟩
        · rcases List.mem_cons.mp hmem with heq | hmem
          · exact absurd (Entry.mk.inj heq).2.symm fun heq => hev ⟨t, nid, heq⟩
          · exact hlast s t nid hmem
      · refine ⟨c'.store.now, fun nid hnid => ?_, fun s t nid hmem => now_later hr' hmem⟩
        rw [hnil] at hnid
        cases hnid

/-- What has been counted at a detection. -/
theorem seen_of_raised {n : ℕ} {flag : Cmd} (hr : (detector D).Reach (⟨s, .act t flag⟩ :: l₂) c)
    (hfail : NoneFails (⟨s, .act t flag⟩ :: l₂)) (hp : Prompt D δ (⟨s, .act t flag⟩ :: l₂))
    (hfresh : FindsFresh D (⟨s, .act t flag⟩ :: l₂)) (hcount : CountsTo (own t l₂) pattern source n)
    (hthreshold : D.config.threshold pattern ≤ n) :
    Seen D l₂ pattern source n s.now (D.config.windowSeconds pattern * 1000 + 3 * δ) := by
  obtain ⟨c₀, hr₀, -, -⟩ := inProgress_of_act hr.newest
  unfold CountsTo at hcount
  unfold Seen
  split_ifs at hcount ⊢ with hpattern
  · subst hpattern
    have hdid := mem_own.mp hcount
    obtain ⟨m₁, s', m₂, rfl⟩ := hdid.split
    obtain ⟨c₂, m, c₃, hr₂, rfl, hs⟩ := hr₀.entry
    have hsuffix : m₂ <:+ ⟨s, .act t flag⟩ :: (m₁ ++ ⟨c₂.store, .act t ⟨.set (.scard (enrolKey source)), some n⟩⟩ :: m₂) :=
      (List.suffix_cons _ _).trans ((List.suffix_append _ _).trans (List.suffix_cons _ _))
    obtain rfl : n = (membersAt c₂.store (enrolKey source)).length := membersAt_scard (step_leads hs)
    -- the newest member is not older than that of the call itself
    obtain ⟨last, hmembers, hlast⟩ := attempted_of_member hr₂ (hp.suffix hsuffix) (hfresh.suffix hsuffix) hthreshold
    obtain ⟨q, s₀, -, ⟨nid, hadded⟩, -⟩ := records_at hr₀
    obtain ⟨⟨s'', ev⟩, hmem, rfl⟩ := mem_own.mp hadded
    have hlater : s.now ≤ s''.now + δ :=
      hp.newest.later hr.newest (List.mem_append_right _ (List.mem_cons_of_mem _ hmem))
    refine ⟨(membersAt c₂.store (enrolKey source)).toFinset, ?_, fun nid hnid => ?_⟩
    · rw [List.toFinset_card_of_nodup (membersAt_nodup hr₂)]
    · obtain ⟨since, hattempt, hwindow⟩ := hmembers nid (List.mem_toFinset.mp hnid)
      refine ⟨since, hattempt.mono (older_subset _ _), ?_⟩
      calc s.now ≤ s''.now + δ := hlater
        _ ≤ last + δ := Nat.add_le_add_right (hlast _ _ _ hmem) δ
        _ ≤ since + (D.config.windowSeconds .enrolmentProbing * 1000 + δ) + δ := Nat.add_le_add_right hwindow δ
        _ ≤ since + (D.config.windowSeconds .enrolmentProbing * 1000 + δ) + δ + δ := Nat.le_add_right _ _
        _ = since + (D.config.windowSeconds .enrolmentProbing * 1000 + 3 * δ) := by ring
  · obtain ⟨⟨s', ev⟩, hmem, rfl⟩ := mem_own.mp hcount
    have hlater : s.now ≤ s'.now + δ := hp.newest.later hr.newest hmem
    obtain ⟨m₁, m₂, rfl⟩ := List.append_of_mem hmem
    obtain ⟨c₁, hr₁⟩ := hr₀.prefix
    have hsuffix : ⟨s', .act t ⟨.counter (.incr (countKey pattern source)), some n⟩⟩ :: m₂ <:+
        ⟨s, .act t flag⟩ :: (m₁ ++ ⟨s', .act t ⟨.counter (.incr (countKey pattern source)), some n⟩⟩ :: m₂) :=
      (List.suffix_append _ _).trans (List.suffix_cons _ _)
    obtain ⟨calls, hcard, hcalls⟩ := seen_of_increment hr₁ (hfail.suffix hsuffix) (hp.suffix hsuffix)
    refine ⟨calls, hcard, fun u hu => ?_⟩
    obtain ⟨s₁, q, harrived, hsignal, hwindow⟩ := hcalls u hu
    refine ⟨s₁, q, List.mem_append_right _ harrived, hsignal, ?_⟩
    calc s.now ≤ s'.now + δ := hlater
      _ ≤ s₁.now + (D.config.windowSeconds pattern * 1000 + 2 * δ) + δ := Nat.add_le_add_right hwindow δ
      _ = s₁.now + (D.config.windowSeconds pattern * 1000 + 3 * δ) := by ring

/-! ## Suppression -/

/-- The flag of a detection lasts for its window. -/
theorem suppressed {s' : Store} {seconds seconds' : ℕ}
    (hr : (detector D).Reach (l₁ ++ ⟨s, .act t ⟨.flag (.setNx key seconds), some true⟩⟩ :: l₂) c)
    (hmem : ⟨s', .act u ⟨.flag (.setNx key seconds'), some true⟩⟩ ∈ l₂) : s'.now + seconds' * 1000 ≤ s.now := by
  obtain ⟨c₀, m, c₁, hr₀, rfl, hs⟩ := hr.entry
  obtain ⟨m₁, m₂, rfl⟩ := List.append_of_mem hmem
  have hkept : KeptUntil c₀.store key (s'.now + seconds' * 1000) := by
    refine hr₀.since (P := fun s => KeptUntil s key (s'.now + seconds' * 1000)) (fun s'' hl => ?_) fun e he s'' hl h => ?_
    · rcases leads_flag hl with ⟨hnone, -⟩ | ⟨hexec, -⟩
      · cases hnone
      · simp only [FlagOp.exec] at hexec
        split_ifs at hexec
        · simp at hexec
        · simp only [Prod.mk.injEq, true_and] at hexec
          rw [KeptUntil, ← hexec]
          exact fun _ => ⟨_, List.mem_cons_self, rfl, by simp⟩
    · refine h.step hl fun t' ttl hev => ?_
      -- no flag is set without a look
      obtain ⟨k₁, k₂, rfl⟩ := List.append_of_mem he
      obtain ⟨s₂, ev⟩ := e
      simp only at hev
      subst hev
      rw [List.append_assoc, List.cons_append] at hr₀
      obtain ⟨q, s₀, -, hpath, -⟩ := records_at hr₀
      exact absurd hpath id
  by_contra hlt
  have hfound := hkept.found (not_le.mp hlt)
  rcases leads_flag (step_leads hs) with ⟨hnone, -⟩ | ⟨hexec, -⟩
  · cases hnone
  · simp only [FlagOp.exec, hfound, if_true] at hexec
    simp at hexec

/-- A detection means that the threshold of its pattern was reached within its window, give or take the time that calls
take, and that there was none within the window before. -/
def DetectionsMean (D : Deployment) (δ : ℕ) (tr : List (Entry Op Op.Res RecordedEvent Store)) : Prop :=
  ∀ l₁ s t pattern source seconds l₂,
    tr = l₁ ++ ⟨s, .act t ⟨.flag (.setNx (suppressionKey pattern source) seconds), some true⟩⟩ :: l₂ →
    Seen D l₂ pattern source (D.config.threshold pattern) s.now (D.config.windowSeconds pattern * 1000 + 3 * δ) ∧
      ∀ s' u seconds', ⟨s', .act u ⟨.flag (.setNx (suppressionKey pattern source) seconds'), some true⟩⟩ ∈ l₂ →
        s'.now + D.config.windowSeconds pattern * 1000 ≤ s.now

/-- Fewer events were seen too. -/
theorem Seen.mono {n n' span : ℕ} {time : Time} (h : Seen D tr pattern source n time span) (hn : n' ≤ n) :
    Seen D tr pattern source n' time span := by
  unfold Seen at h ⊢
  split_ifs at h ⊢
  · obtain ⟨nids, hcard, hnids⟩ := h
    exact ⟨nids, hn.trans hcard, hnids⟩
  · obtain ⟨calls, hcard, hcalls⟩ := h
    exact ⟨calls, hn.trans hcard, hcalls⟩

/-- **What a detection means.** In every run in which no command fails, no event takes longer than `δ` to record, and
nobody who brings the set of a source to the threshold finds an old member in it, a detection says that as many events
as the threshold happened within the window and `3 * δ`, and none was raised within the window before. -/
theorem detections_mean (hr : (detector D).Reach tr c) (hfail : NoneFails tr) (hp : Prompt D δ tr)
    (hfresh : FindsFresh D tr) : DetectionsMean D δ tr := by
  rintro l₁ s t pattern source seconds l₂ rfl
  obtain ⟨c', hr'⟩ := hr.prefix
  have hsuffix : ⟨s, .act t ⟨.flag (.setNx (suppressionKey pattern source) seconds), some true⟩⟩ :: l₂ <:+
      l₁ ++ ⟨s, .act t ⟨.flag (.setNx (suppressionKey pattern source) seconds), some true⟩⟩ :: l₂ := List.suffix_append _ _
  have hwindow : ∀ {k₁ k₂ : List (Entry Op Op.Res RecordedEvent Store)} {s' : Store} {u seconds' : ℕ}
      {c : Config Op Op.Res Failure Unit Store},
      (detector D).Reach (k₁ ++ ⟨s', .act u ⟨.flag (.setNx (suppressionKey pattern source) seconds'), some true⟩⟩ :: k₂) c →
      seconds' = D.config.windowSeconds pattern ∧
        ∃ n, D.config.threshold pattern ≤ n ∧ CountsTo (own u k₂) pattern source n := by
    intro k₁ k₂ s' u seconds' c hr
    obtain ⟨q, s₀, -, ⟨pattern', source', n, -, hkey, hseconds, hthreshold, hcount⟩, -⟩ := records_at hr
    obtain ⟨rfl, rfl⟩ := suppressionKey_inj hkey
    exact ⟨hseconds, n, hthreshold, hcount⟩
  obtain ⟨-, n, hthreshold, hcount⟩ := hwindow hr
  refine ⟨(seen_of_raised hr' (hfail.suffix hsuffix) (hp.suffix hsuffix) (hfresh.suffix hsuffix) hcount hthreshold).mono
    hthreshold, fun s' u seconds' hmem => ?_⟩
  obtain ⟨m₁, m₂, rfl⟩ := List.append_of_mem hmem
  obtain ⟨c₀, hr₀, -, -⟩ := inProgress_of_act hr
  obtain ⟨rfl, -⟩ := hwindow hr₀
  exact suppressed hr hmem

end Runs

/-! ## Runs to look at -/

section Samples

variable {D : Deployment} {δ : ℕ} {tr : List (Entry Op Op.Res RecordedEvent Store)} {c : Config Op Op.Res Failure Unit Store}

/-- Whether no command has failed. -/
def noneFails (tr : List (Entry Op Op.Res RecordedEvent Store)) : Bool :=
  tr.all fun e => match e.event with
    | .act _ a => a.res.isSome
    | _ => true

theorem noneFails_of_all (h : noneFails tr = true) : NoneFails tr := by
  intro e he t o heq
  have hsome := List.all_eq_true.mp h e he
  rw [heq] at hsome
  simp at hsome

/-- Whether the event of a call has been recorded. -/
def isRecorded (c : Config Op Op.Res Failure Unit Store) (t : ℕ) : Bool :=
  match c.calls[t]? with
  | some (.call _ _) => false
  | _ => true

/-- Whether no call is in progress for more than `δ`. -/
def isPrompt (δ : ℕ) (run : List (Entry Op Op.Res RecordedEvent Store) × Config Op Op.Res Failure Unit Store) : Bool :=
  run.1.all fun e => match e.event with
    | .arrive t _ => isRecorded run.2 t || decide (run.2.store.now ≤ e.before.now + δ)
    | _ => true

/-- A run is prompt if it has been so all along. -/
theorem prompt_of_play {ms : List (Move RecordedEvent Oracle)} (hplay : (detector D).play ms = some (tr, c))
    (h : (ms.tails.all fun ms' => ((detector D).play ms').all (isPrompt δ)) = true) : Prompt D δ tr := by
  rintro l₁ e l₂ c₁ rfl hr₁ t ⟨o, k, hcall⟩ s₀ q harrived
  obtain ⟨ms', c', hsuffix, hplay', hstore⟩ := (detector D).play_older hplay
  have hall := List.all_eq_true.mp h ms' ((List.mem_tails _ _).mpr hsuffix)
  rw [hplay', Option.all_some] at hall
  have hprompt := List.all_eq_true.mp hall _ harrived
  have hr' : (detector D).Reach l₂ c' := (detector D).play_reach hplay'
  -- the call is where the run says that it is
  obtain ⟨p, hp⟩ : ∃ p, c'.calls[t]? = some p := ⟨_, List.getElem?_eq_getElem (hr'.arrived_lt ⟨_, harrived, rfl⟩)⟩
  obtain rfl := hr'.call_unique hr₁ hp hcall
  simp only [isRecorded, hp, Bool.false_or, decide_eq_true_eq, hstore] at hprompt
  exact hprompt

/-- Whether who adds to a set finds no old member in it. -/
def findsFresh (D : Deployment) (tr : List (Entry Op Op.Res RecordedEvent Store)) : Bool :=
  tr.tails.all fun l => match l with
    | ⟨s, .act _ ⟨.set (.sadd key nid), _⟩⟩ :: l₂ => (membersAt s key).all fun m => m == nid || l₂.any fun e =>
        match e.event with
        | .arrive _ (.enrolmentAttempt ip m') => m' == m && enrolKey (D.sourceHandle ip) == key &&
            decide (s.now ≤ e.before.now + D.config.windowSeconds .enrolmentProbing * 1000)
        | _ => false
    | _ => true

theorem findsFresh_of_all (h : findsFresh D tr = true) : FindsFresh D tr := by
  rintro l₁ s t source nid l₂ rfl - m hm hne
  have hall := List.all_eq_true.mp h _ ((List.mem_tails _ _).mpr (List.suffix_append l₁ _))
  have hany := List.all_eq_true.mp hall m hm
  simp only [beq_eq_false_iff_ne.mpr hne, Bool.false_or, List.any_eq_true] at hany
  obtain ⟨⟨s₀, ev⟩, hmem, hmatch⟩ := hany
  split at hmatch
  · rename_i u ip m' hev
    simp only at hev
    subst hev
    simp only [Bool.and_eq_true, beq_iff_eq, decide_eq_true_eq] at hmatch
    obtain ⟨⟨rfl, hkey⟩, hwindow⟩ := hmatch
    exact ⟨s₀.now, ⟨s₀, u, ip, hmem, enrolKey_inj hkey, rfl⟩, hwindow⟩
  · cases hmatch

/-- Whether the newest entry raises a detection of probing from a source. -/
def isRaised (source : String) (tr : List (Entry Op Op.Res RecordedEvent Store)) : Bool :=
  match tr with
  | ⟨_, .act _ ⟨.flag (.setNx key _), some true⟩⟩ :: _ => key == suppressionKey .enrolmentProbing source
  | _ => false

theorem exists_of_isRaised {source : String} (h : isRaised source tr = true) : ∃ s t seconds l₂,
    tr = ⟨s, .act t ⟨.flag (.setNx (suppressionKey .enrolmentProbing source) seconds), some true⟩⟩ :: l₂ := by
  unfold isRaised at h
  split at h
  · rename_i s t key seconds l₂
    obtain rfl := beq_iff_eq.mp h
    exact ⟨s, t, seconds, l₂, rfl⟩
  · cases h

/-- The pseudonyms that were tried from a source within a span before a time. -/
def recentNids (D : Deployment) (source : String) (time : Time) (span : ℕ)
    (tr : List (Entry Op Op.Res RecordedEvent Store)) : List String :=
  tr.filterMap fun e => match e.event with
    | .arrive _ (.enrolmentAttempt ip nid) =>
      if D.sourceHandle ip = source ∧ time ≤ e.before.now + span then some nid else none
    | _ => none

/-- What was seen of enrolment attempts is in that list. -/
theorem length_recentNids {source : String} {n span : ℕ} {time : Time}
    (h : Seen D tr .enrolmentProbing source n time span) : n ≤ (recentNids D source time span tr).length := by
  obtain ⟨nids, hcard, hnids⟩ := h
  have hsub : nids ⊆ (recentNids D source time span tr).toFinset := by
    intro nid hnid
    obtain ⟨since, ⟨s, t, ip, hmem, hsource, rfl⟩, hwindow⟩ := hnids nid hnid
    rw [List.mem_toFinset]
    exact List.mem_filterMap.mpr ⟨_, hmem, by simp [hsource, hwindow]⟩
  calc n ≤ nids.card := hcard
    _ ≤ (recentNids D source time span tr).toFinset.card := Finset.card_le_card hsub
    _ ≤ (recentNids D source time span tr).length := List.toFinset_card_le _

end Samples

/-- A deployment for which three pseudonyms in a minute are probing. -/
def sampleDetector : Deployment :=
  { sampleDeployment with
    config := { sampleDeployment.config with
      ANOMALY_ENABLED := true, ANOMALY_ENROL_PROBE_DISTINCT_NIDS := 3, ANOMALY_ENROL_PROBE_WINDOW_SECONDS := 60 } }

/-- Three pseudonyms are tried from one source, with `gap` milliseconds between two attempts. -/
def sampleProbing (gap : ℕ) : List (Move RecordedEvent Oracle) :=
  [.arrive (.enrolmentAttempt "10.0.0.1" "a"), .go 0 .unit, .go 0 .unit, .go 0 .unit, .env (.elapse gap),
    .arrive (.enrolmentAttempt "10.0.0.1" "b"), .go 1 .unit, .go 1 .unit, .go 1 .unit, .env (.elapse gap),
    .arrive (.enrolmentAttempt "10.0.0.1" "c"), .go 2 .unit, .go 2 .unit, .go 2 .unit, .go 2 .unit]

/-- Three attempts within a minute: the detection means what it says. -/
theorem detections_mean_sampleProbing : ∃ tr c, (detector sampleDetector).Reach tr c ∧ isRaised "10.0.0.1" tr = true ∧
    DetectionsMean sampleDetector 0 tr := by
  obtain ⟨⟨tr, c⟩, hplay, hrun⟩ : ∃ run, (detector sampleDetector).play (sampleProbing 20000).reverse = some run ∧
      (isRaised "10.0.0.1" run.1 && noneFails run.1 && findsFresh sampleDetector run.1) = true :=
    (Option.any_eq_true _ _).mp (by decide +kernel)
  simp only [Bool.and_eq_true] at hrun
  obtain ⟨⟨hraised, hfail⟩, hfresh⟩ := hrun
  have hprompt : Prompt sampleDetector 0 tr := prompt_of_play hplay (by decide +kernel)
  have hr := (detector sampleDetector).play_reach hplay
  exact ⟨tr, c, hr, hraised, detections_mean hr (noneFails_of_all hfail) hprompt (findsFresh_of_all hfresh)⟩

/-- Three attempts, each 45 seconds after the one before: the set outlives the window. -/
theorem not_detections_mean : ¬ ∀ (D : Deployment) tr c, (detector D).Reach tr c → NoneFails tr → Prompt D 0 tr →
    DetectionsMean D 0 tr := by
  intro h
  obtain ⟨⟨tr, c⟩, hplay, hrun⟩ : ∃ run, (detector sampleDetector).play (sampleProbing 45000).reverse = some run ∧
      (isRaised "10.0.0.1" run.1 && noneFails run.1 && run.1.head?.all fun e =>
        decide ((recentNids sampleDetector "10.0.0.1" e.before.now 60000 run.1.tail).length < 3)) = true :=
    (Option.any_eq_true _ _).mp (by decide +kernel)
  simp only [Bool.and_eq_true] at hrun
  obtain ⟨⟨hraised, hfail⟩, hfew⟩ := hrun
  have hprompt : Prompt sampleDetector 0 tr := prompt_of_play hplay (by decide +kernel)
  have hr := (detector sampleDetector).play_reach hplay
  obtain ⟨s, t, seconds, l₂, rfl⟩ := exists_of_isRaised hraised
  obtain ⟨hseen, -⟩ := h sampleDetector _ c hr (noneFails_of_all hfail) hprompt [] s t _ _ seconds l₂ rfl
  have hfew : (recentNids sampleDetector "10.0.0.1" s.now 60000 l₂).length < 3 := of_decide_eq_true hfew
  exact absurd (length_recentNids hseen) (not_le.mpr hfew)

end SdidBridge
