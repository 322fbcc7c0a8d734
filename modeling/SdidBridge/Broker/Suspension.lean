import SdidBridge.Broker.Revocation

/-!
# Suspended citizens

After SDID has answered that an identity is invalid, a call suspends the citizen and revokes the active
bindings. A binding that is pending then is left pending, and its activation does not look at the
citizen: without such an activation, the suspension reaches every binding that was there
(`suspension_reaches_bindings`).

A citizen who is suspended stays suspended: no command sets the status back, so that re-verification
refuses every later login and approval, from whichever binding (`suspended_is_refused`).
-/

namespace SdidBridge

open Concurrent Machine

variable {D : Deployment} {tr l₁ l₂ : Run} {c : State} {s s' : Store} {t u : ℕ}

/-! ## Suspension -/

/-- Ninety days after the first enrolment, the binding 3 is enrolled by call 2, and the sweep of call 3
is told that the identity is invalid. -/
def sampleSweep : Script :=
  sampleDevice ++ .env (.elapse 7776000000) ::
  sampleEnrolment 2 [.unit, .unit, .unit, .unit, .unit] 3 'E' 'F' ++
  .arrive (.reverifySweep (some "admin") none) ::
  Script.go 3 [.unit, .unit, .unit, .unit, .reassert ⟨false, .AL1, "ref"⟩, .unit, .unit, sampleRowId,
    sampleRowId]

/-- Call `t` is over. -/
def isOver (c : State) (t : ℕ) : Bool :=
  match c.calls[t]? with
  | some (.call _ _) => false
  | _ => true

/-- What a command can do to the row of a citizen. -/
inductive CitizenChange : Act CitizenOp CitizenOp.Res → Citizen → Citizen → Prop
  /-- Neither the id nor the status changes. -/
  | kept {a k k'} (hid : k'.id = k.id) (hs : k'.status = k.status) : CitizenChange a k k'
  /-- The citizen is suspended. -/
  | suspended {id now k} (hid : Uuid.ofText id = some k.id) : CitizenChange
      ⟨.suspend id now, some ()⟩ k { k with status := .suspended, updatedAt := now }

theorem CitizenChange.id_eq {a : Act CitizenOp CitizenOp.Res} {k k' : Citizen}
    (h : CitizenChange a k k') : k'.id = k.id := by
  cases h with
  | kept hid _ => exact hid
  | suspended _ => rfl

/-- What a command does to the citizens. An enrolment of a known citizen sets the SDID subject and the
time, and not the status. -/
theorem citizens_writes (x : List Citizen) (a : Act CitizenOp CitizenOp.Res) (x' : List Citizen)
    (hs : (citizens D).Step x a x') :
    Writes (·.id) (fun k => k.status = .active) (CitizenChange a) x x' := by
  obtain ⟨o, r⟩ := a
  rcases hs with ⟨now, hx⟩ | ⟨-, rfl⟩
  swap
  · exact .read _
  cases o with
  | select id => obtain ⟨u, -, ⟨⟩⟩ | ⟨rfl, rfl⟩ := withUuid_eq hx <;> exact .read _
  | selectByPseudoNid nid => cases hx; exact .read _
  | upsert id nid subject updatedAt =>
    simp only [CitizenOp.exec] at hx
    split at hx
    · cases hx
      exact .update _ _ fun k _ _ => .kept rfl rfl
    · split at hx
      · rename_i rows' hrows
        obtain ⟨hfree, rfl⟩ := Table.insert_eq_some.mp hrows
        cases hx
        exact .insert (fun k hk => of_decide_eq_false (hfree k hk)) rfl
      · cases hx
        exact .read _
  | suspend id t =>
    obtain ⟨u, hu, ⟨⟩⟩ | ⟨rfl, rfl⟩ := withUuid_eq hx
    · refine .update _ _ fun k _ hk => .suspended ?_
      rw [hu, ← of_decide_eq_true hk]
    · exact .read _

/-- The ids of the citizens are different. -/
theorem citizens_nodup (hr : (broker D).Reach tr c) : (c.store.citizens.map (·.id)).Nodup :=
  (citizens D).nodup citizens_writes (fun _ _ _ h => h.id_eq) rfl hr

/-- The citizen of an id is stored as suspended. -/
def IsSuspended (s : Store) (id : Uuid) : Prop :=
  ∃ k ∈ s.citizens, k.id = id ∧ k.status = .suspended

/-- Every step leaves a suspended citizen suspended. -/
theorem suspended_kept {e : Step} (hl : (broker D).Leads e s') {id : Uuid}
    (h : IsSuspended e.before id) : IsSuspended s' id := by
  obtain ⟨k, hk, rfl, hs⟩ := h
  obtain ⟨k', hk', rfl | ⟨t, a, -, hc⟩⟩ := (citizens D).row_step citizens_writes hl hk
  · exact ⟨k', hk', rfl, hs⟩
  refine ⟨k', hk', hc.id_eq, ?_⟩
  cases hc with
  | kept _ hstatus => rw [hstatus, hs]
  | suspended _ => rfl

/-- The citizen that a call suspends is one that it has read. -/
theorem read_of_suspends {citizenId : String} {now : Time} {r : Option Unit}
    (hr : (broker D).Reach (l₁ ++ ⟨s, .act t ⟨.citizen (.suspend citizenId now), r⟩⟩ :: l₂) c) :
    ∃ k ∈ s.citizens, Uuid.ofText citizenId = some k.id := by
  obtain ⟨q, -, ⟨subject, verdict, h', hown, hinvalid⟩, hafter⟩ := onPath hr
  rw [hown] at hafter
  obtain ⟨citizenId', k, h'', now', rfl, ho⟩ := hafter hinvalid
  simp only [Op.citizen.injEq, CitizenOp.suspend.injEq] at ho
  obtain ⟨rfl, -⟩ := ho
  have hread : Did l₂ t ⟨.citizen (.select citizenId), some (some k)⟩ := by
    rw [← mem_own, hown]
    simp
  obtain ⟨c₀, -, -, hr₀, hb, -⟩ := hr.entry
  obtain ⟨k₁, s₁, k₂, rfl⟩ := hread.split
  obtain ⟨hk, hid⟩ := mem_of_select_citizen hr₀
  obtain ⟨k', hk', hkid, -⟩ := (citizens D).row_later citizens_writes (fun k => k.id)
    (fun _ _ _ h => ⟨h.id_eq, h.id_eq⟩) hr₀ (List.mem_append_right _ List.mem_cons_self) hk
  rw [show (citizens D).get c₀.store = s.citizens from congrArg Store.citizens hb] at hk'
  exact ⟨k', hk', by rw [hid, hkid]⟩

/-- A citizen who was suspended is suspended. -/
theorem suspended_of_suspends {citizenId : String} {now : Time} (hr : (broker D).Reach tr c)
    (hd : Did tr t ⟨.citizen (.suspend citizenId now), some ()⟩) :
    ∃ id, Uuid.ofText citizenId = some id ∧ IsSuspended c.store id := by
  obtain ⟨l₁, s, l₂, rfl⟩ := hd.split
  obtain ⟨k, hk, hid⟩ := read_of_suspends hr
  refine ⟨k.id, hid, hr.since (P := fun s => IsSuspended s k.id) ?_ fun e _ s' hl h => suspended_kept hl h⟩
  intro s' hl
  have hstep := (citizens D).leads_act ⟨.suspend citizenId now, some ()⟩ hl
  rcases hstep with ⟨at', hx⟩ | ⟨hnone, -⟩
  · obtain ⟨v, hv, hx⟩ | ⟨hnone, -⟩ := withUuid_eq hx
    · have hkv : k.id = v := Option.some.inj (hid.symm.trans hv)
      have hrows : s'.citizens = Table.update (fun k => k.id = v)
          (fun k => { k with status := .suspended, updatedAt := now }) s.citizens :=
        (congrArg Prod.snd hx).symm
      refine ⟨{ k with status := .suspended, updatedAt := now }, ?_, rfl, rfl⟩
      rw [hrows, Table.mem_update]
      exact ⟨k, hk, if_pos (by simp [hkv])⟩
    · simp at hnone
  · simp at hnone

/-- A login or a decision that reads a citizen who is not active has thrown the refusal of
re-verification. -/
theorem refused_of_inactive {id : String} {k : Citizen} {q : Request}
    (hr : (broker D).Reach
      (l₁ ++ ⟨s, .act u ⟨.citizen (.select id), some (some k)⟩⟩ :: l₂) c)
    (harrived : Arrived l₂ u q) (hq : q.reverifies = true) (hs : k.status ≠ .active) :
    c.calls[u]? = some (.raise cannotReassert) := by
  -- No command of the call comes after the read.
  have hnone : own u l₁ = [] := by
    rcases List.eq_nil_or_concat (own u l₁) with hnil | ⟨h, a', hlast⟩
    · exact hnil
    obtain ⟨m₁, s', m₂, rfl, -, hm₂⟩ := exists_of_own_eq (hlast.trans (List.concat_eq_append ..))
    rw [List.append_assoc, List.cons_append] at hr
    obtain ⟨q', hq', -, hafter⟩ := onPath hr
    obtain rfl := hr.arrived_unique (hq'.mono (older_subset _ _))
      ((harrived.mono (older_subset m₂ l₂)).mono (older_subset m₁ _))
    rw [own_append, hm₂, own_cons_self, List.nil_append] at hafter
    exact absurd (hafter hq) hs
  have hown : own u (l₁ ++ ⟨s, .act u ⟨.citizen (.select id), some (some k)⟩⟩ :: l₂) =
      ⟨.citizen (.select id), some (some k)⟩ :: own u l₂ := by
    rw [own_append, hnone, own_cons_self, List.nil_append]
  have harrived' := harrived.mono (older_subset (e := (⟨s, .act u ⟨.citizen (.select id),
    some (some k)⟩⟩ : Step)) l₁ l₂)
  obtain ⟨p, hp⟩ : ∃ p, c.calls[u]? = some p :=
    ⟨_, List.getElem?_eq_getElem (hr.arrived_lt harrived')⟩
  obtain ⟨q', hq', hres⟩ := hr.residue hp
  obtain rfl := hr.arrived_unique hq' harrived'
  have hend := hres.along (paths D q')
  rw [hown] at hend
  cases p with
  | ret v => simpa [hs] using hend.1 hq
  | raise e =>
    have he := (hend.1 hq).resolve_left hs
    rw [hp, Except.error.inj he]
  | call o k' => exact absurd (hend.1.2 hq) hs

/-- The request is a login with a binding or a decision from it. -/
def Request.usesBinding (id : Uuid) : Request → Prop
  | .login body => Uuid.ofText body.bindingId = some id
  | .decision _ body => Uuid.ofText body.bindingId = some id
  | _ => False

/-- Whom a login or a decision re-verifies is the citizen of its binding. -/
theorem citizen_of_reverifies (hr : (broker D).Reach tr c) {q : Request} {citizenId : String}
    (h : ReverifiesOn q (own u tr) citizenId) {b : DeviceBinding} (hb : b ∈ c.store.bindings)
    (huses : q.usesBinding b.id) : citizenId = b.citizenId.text := by
  -- Whatever row was read under the binding's id has the binding's citizen.
  have hsame : ∀ {v id} {b₁ : DeviceBinding}, Did tr v ⟨.binding (.select id), some (some b₁)⟩ →
      b₁.id = b.id → b₁.citizenId = b.citizenId := by
    intro v id b₁ hread hid
    obtain ⟨-, b₂, hb₂, hident⟩ := binding_of_read hr hread
    simp only [DeviceBinding.identity, Prod.mk.injEq] at hident
    have hbb : b₂ = b :=
      List.inj_on_of_nodup_map (bindings_nodup hr) hb₂ hb (hident.1.trans hid)
    rw [← hident.2.1, hbb]
  cases q with
  | login body =>
    obtain ⟨b₁, hread, rfl⟩ := h
    have hid := (binding_of_read hr (mem_own.mp hread)).1
    have huses' : Uuid.ofText body.bindingId = some b.id := huses
    rw [hsame (mem_own.mp hread) (Option.some.inj (hid.symm.trans huses'))]
  | decision bearer body =>
    obtain ⟨v, id, b₁, hread, rfl, hspelled⟩ := binding_of_session hr h
    have huses' : Uuid.ofText body.bindingId = some b.id := huses
    rw [hspelled, Uuid.ofText_text, Option.some.injEq] at huses'
    rw [hsame hread huses']
  | _ => exact huses.elim

/-- Once a citizen has been suspended, every login and every approval from any of their bindings is
refused by re-verification as soon as that reads the citizen, whatever was enrolled since. -/
theorem suspended_is_refused {citizenId id : String} {now : Time} {row : Option Citizen} {q : Request}
    {b : DeviceBinding}
    (hr : (broker D).Reach (l₁ ++ ⟨s, .act u ⟨.citizen (.select id), some row⟩⟩ :: l₂) c)
    (hsuspended : Did l₂ t ⟨.citizen (.suspend citizenId now), some ()⟩) (hq : Arrived l₂ u q)
    (hb : b ∈ s.bindings) (huses : q.usesBinding b.id)
    (hcitizen : Uuid.ofText citizenId = some b.citizenId) :
    c.calls[u]? = some (.raise cannotReassert) := by
  obtain ⟨c₀, -, -, hr₀, hbefore, -⟩ := hr.entry
  have hstore : c₀.store = s := hbefore
  obtain ⟨q', hq', hreverifies, -⟩ := onPath hr
  obtain rfl := hr₀.arrived_unique hq' hq
  have hid : id = b.citizenId.text :=
    citizen_of_reverifies hr₀ hreverifies (by rw [hstore]; exact hb) huses
  obtain ⟨v, hv, k, hk, hkid, hks⟩ := suspended_of_suspends hr₀ hsuspended
  have hkb : k.id = b.citizenId := by rw [hkid, ← Option.some.inj (hcitizen.symm.trans hv)]
  -- The row that was read is the one of the suspended citizen.
  obtain ⟨x, hstep⟩ := (citizens D).step_at ⟨.select id, some row⟩ hr
  have hrow : row = some k := by
    rcases hstep with ⟨now, hx⟩ | ⟨hnone, -⟩
    · obtain ⟨w, hw, hx⟩ | ⟨hnone, -⟩ := withUuid_eq hx
      · rw [hid, Uuid.ofText_text, Option.some.injEq] at hw
        have hfind := congrArg Prod.fst hx
        simp only [Option.some.injEq] at hfind
        rw [← hfind]
        have hsome : (s.citizens.find? fun k => k.id = w).isSome := by
          rw [List.find?_isSome]
          exact ⟨k, by rw [← hstore]; exact hk, by simp [hkb, hw]⟩
        obtain ⟨k₁, hk₁⟩ := Option.isSome_iff_exists.mp hsome
        have hk₁id : k₁.id = w := by simpa using List.find?_some hk₁
        have hk₁mem : k₁ ∈ c₀.store.citizens := by
          rw [hstore]
          exact List.mem_of_find?_eq_some hk₁
        have hkk : k₁ = k := List.inj_on_of_nodup_map (citizens_nodup hr₀) hk₁mem hk
          (hk₁id.trans (hw.symm.trans hkb.symm))
        change s.citizens.find? _ = some k
        rw [hk₁, hkk]
      · simp at hnone
    · simp at hnone
  subst hrow
  refine refused_of_inactive hr hq ?_ (by rw [hks]; simp)
  cases q' with
  | login body => rfl
  | decision bearer body => rfl
  | _ => exact huses.elim

/-- The citizen is suspended by the sweep of call 2, enrols the binding 3 with calls 3 and 4, and logs in
with it ninety days later with calls 5 and 6. -/
def sampleReturn : Script :=
  sampleDevice ++ .env (.elapse 7776000000) ::
  .arrive (.reverifySweep (some "admin") none) ::
  Script.go 2 [.unit, .unit, .unit, .unit, .reassert ⟨false, .AL1, "ref"⟩, .unit, .unit, sampleRowId,
    sampleRowId] ++
  sampleEnrolment 3 [.unit, .unit, .unit, .unit, .unit] 3 'E' 'F' ++ sampleActivation 4 3 'E' ++
    Script.go 4 [.unit, sampleRowId] ++
  .env (.elapse 7776000000) :: sampleLogin 5 3 'G' 'H' ++ Script.go 6 [.unit]

/-- The entry suspends the citizen of an id. -/
def suspendsCitizen (id : Uuid) (e : Step) : Bool :=
  match e.event with
  | .act _ ⟨.citizen (.suspend citizenId _), some _⟩ => Uuid.ofText citizenId == some id
  | _ => false

/-- The entry reads a citizen in call `t`. -/
def readsCitizen (t : ℕ) (e : Step) : Bool :=
  match e.event with
  | .act t' ⟨.citizen (.select _), some _⟩ => t' == t
  | _ => false

/-- The entry is the arrival of a login with a binding as call `t`. -/
def loginArrives (t : ℕ) (id : Uuid) (e : Step) : Bool :=
  match e.event with
  | .arrive t' (.login body) => t' == t && Uuid.ofText body.bindingId == some id
  | _ => false

theorem did_of_suspendsCitizen {id : Uuid} (h : ∃ e ∈ tr, suspendsCitizen id e = true) :
    ∃ t citizenId now, Did tr t ⟨.citizen (.suspend citizenId now), some ()⟩ ∧
      Uuid.ofText citizenId = some id := by
  obtain ⟨e, he, hs⟩ := h
  unfold suspendsCitizen at hs
  split at hs
  · rename_i t citizenId now r hev
    exact ⟨t, citizenId, now, ⟨e, he, hev⟩, beq_iff_eq.mp hs⟩
  · simp at hs

theorem exists_of_readsCitizen {e : Step} (h : readsCitizen t e = true) :
    ∃ s id row, e = ⟨s, .act t ⟨.citizen (.select id), some row⟩⟩ := by
  obtain ⟨s, ev⟩ := e
  unfold readsCitizen at h
  split at h
  · rename_i t' id row he
    simp only at he
    rw [he, beq_iff_eq.mp h]
    exact ⟨s, id, row, rfl⟩
  · simp at h

theorem arrived_of_loginArrives {id : Uuid} (h : ∃ e ∈ tr, loginArrives t id e = true) :
    ∃ body, Arrived tr t (.login body) ∧ Uuid.ofText body.bindingId = some id := by
  obtain ⟨e, he, hs⟩ := h
  unfold loginArrives at hs
  split at hs
  · rename_i t' body hev
    simp only [Bool.and_eq_true, beq_iff_eq] at hs
    rw [hs.1] at hev
    exact ⟨body, ⟨e, he, hev⟩, hs.2⟩
  · simp at hs

/-- The login with the new binding is refused. -/
theorem suspended_is_refused_sampleReturn : ∃ e l c t citizenId now body b,
    (broker sampleDeployment).Reach (e :: l) c ∧
    Did l t ⟨.citizen (.suspend citizenId now), some ()⟩ ∧ Arrived l 6 (.login body) ∧
    b ∈ e.before.bindings ∧ Uuid.ofText body.bindingId = some b.id ∧
    Uuid.ofText citizenId = some b.citizenId ∧ c.calls[6]? = some (.raise cannotReassert) := by
  obtain ⟨tr, c, hr, hrun⟩ := (broker sampleDeployment).exists_of_play sampleReturn.reverse
    (p := fun run => run.1.head?.any fun e => readsCitizen 6 e &&
      run.1.tail.any (suspendsCitizen (sampleUuid 1)) &&
      run.1.tail.any (loginArrives 6 (sampleUuid 3)) &&
      e.before.bindings.any fun b => b.id == sampleUuid 3 && b.citizenId == sampleUuid 1)
    (by decide +kernel)
  cases tr with
  | nil => simp at hrun
  | cons e l =>
    simp only [List.head?_cons, Option.any_some, List.tail_cons, Bool.and_eq_true, List.any_eq_true,
      beq_iff_eq] at hrun
    obtain ⟨⟨⟨hreads, hsuspends⟩, hlogin⟩, b, hb, hbid, hbcitizen⟩ := hrun
    obtain ⟨s, id, row, rfl⟩ := exists_of_readsCitizen hreads
    obtain ⟨t, citizenId, now, hd, hcitizen⟩ := did_of_suspendsCitizen hsuspends
    obtain ⟨body, harrived, hbody⟩ := arrived_of_loginArrives hlogin
    rw [← hbcitizen] at hcitizen
    rw [← hbid] at hbody
    have hr' : (broker sampleDeployment).Reach ([] ++ _ :: l) c := hr
    exact ⟨_, l, c, t, citizenId, now, body, b, hr, hd, harrived, hb, hbody, hcitizen,
      suspended_is_refused hr' hd harrived hb hbody hcitizen⟩

/-- Whether calls 3 and 4 have enrolled and activated a binding, and call 6 was refused. -/
def returnsRefused (id : Uuid) (c : State) : Bool :=
  match (c.calls[3]?, c.calls[4]?, c.calls[6]?) with
  | (some (Prog.ret (Reply.enrolled r)), some (Prog.ret (Reply.activated id')), some (Prog.raise e)) =>
    r.bindingId == id && id' == id && e == cannotReassert
  | _ => false

/-- The entry is the arrival of an enrolment as call `t`. -/
def enrolmentArrives (t : ℕ) (e : Step) : Bool :=
  match e.event with
  | .arrive t' (.enrolStart _ _) => t' == t
  | _ => false

/-- A citizen who is suspended, and has then enrolled and activated a new binding, is refused at the
login with it. -/
theorem fresh_enrolment_refused_sampleReturn : ∃ l₁ e l₂ c t citizenId now r body,
    (broker sampleDeployment).Reach (l₁ ++ e :: l₂) c ∧
    Did l₂ t ⟨.citizen (.suspend citizenId now), some ()⟩ ∧
    (∃ req ip, e.event = .arrive 3 (.enrolStart req ip)) ∧
    c.calls[3]? = some (.ret (.enrolled r)) ∧ c.calls[4]? = some (.ret (.activated r.bindingId)) ∧
    Arrived (l₁ ++ e :: l₂) 6 (.login body) ∧ Uuid.ofText body.bindingId = some r.bindingId ∧
    c.calls[6]? = some (.raise cannotReassert) := by
  obtain ⟨tr, c, hr, hrun⟩ := (broker sampleDeployment).exists_of_play sampleReturn.reverse
    (p := fun run => returnsRefused (sampleUuid 3) run.2 &&
      run.1.any (loginArrives 6 (sampleUuid 3)) && (run.1.filter fun e => enrolmentArrives 3 e ||
        suspendsCitizen (sampleUuid 1) e).map (enrolmentArrives 3) == [true, false])
    (by decide +kernel)
  simp only [Bool.and_eq_true, List.any_eq_true, beq_iff_eq] at hrun
  obtain ⟨⟨hreturns, hlogin⟩, horder⟩ := hrun
  obtain ⟨body, harrived, hbody⟩ := arrived_of_loginArrives hlogin
  -- The suspension is older than the arrival of the enrolment.
  obtain ⟨e, fs, hfilter, henrols, hfs⟩ := List.map_eq_cons_iff.mp horder
  obtain ⟨e', fs', rfl, hsuspends, -⟩ := List.map_eq_cons_iff.mp hfs
  obtain ⟨l₁, l₂, rfl, -, -, hl₂⟩ := List.filter_eq_cons_iff.mp hfilter
  have he' : e' ∈ l₂.filter _ := hl₂ ▸ List.mem_cons_self
  obtain ⟨hmem, hor⟩ := List.mem_filter.mp he'
  rw [hsuspends, Bool.false_or] at hor
  obtain ⟨t, citizenId, now, hd, -⟩ := did_of_suspendsCitizen ⟨e', hmem, hor⟩
  have hreq : ∃ req ip, e.event = .arrive 3 (.enrolStart req ip) := by
    unfold enrolmentArrives at henrols
    split at henrols
    · rename_i t' req ip hev
      rw [hev, beq_iff_eq.mp henrols]
      exact ⟨req, ip, rfl⟩
    · simp at henrols
  unfold returnsRefused at hreturns
  split at hreturns
  · rename_i r id' err hcalls
    simp only [Prod.mk.injEq] at hcalls
    obtain ⟨h₃, h₄, h₆⟩ := hcalls
    simp only [Bool.and_eq_true, beq_iff_eq] at hreturns
    obtain ⟨⟨hr₃, hr₄⟩, hr₆⟩ := hreturns
    refine ⟨l₁, e, l₂, c, t, citizenId, now, r, body, hr, hd, hreq, h₃, ?_, harrived, ?_, ?_⟩
    · rw [h₄, hr₄, hr₃]
    · rw [hbody, hr₃]
    · rw [h₆, hr₆]
  · simp at hreturns

end SdidBridge
