import SdidBridge.Keys.Paths

/-!
# The published keys

A replica signs with the active key of its cache and publishes a snapshot of the cache. A reload
moves the cache on first and the snapshot only some awaits later, and a token that is signed in
between has a key that nobody can look up. Two reloads may also end in the other order than they read
the table. When neither happens, every key that a token was handed out with stays published
(`jwks_covers`).
-/

namespace SdidBridge.Keys

open Concurrent Prog

variable {C : KeysConfig} {r : ℕ} {tr l₁ l₂ : List Step} {c : State}

/-! ## The paths -/

/-- The key set that a call publishes is the one that it has just listed, and only a replica that
stops closes its custody. -/
def Publishes (r : ℕ) (q : Request) (h : List Cmd) (o : Op) : Prop :=
  (∀ kids, o = .on r (.setJwks kids) → ∃ h', h = ⟨.on r .listPublicJwks, some kids⟩ :: h') ∧
  (o = .on r .close → q = .shutdown r)

theorem along_publishes (q : Request) :
    Along (Publishes r q) (fun _ _ => True) [] ((replicas C).handler q) := by
  have hother : ∀ {α : Type} {p : Call α},
      Only (fun o => (∀ kids, o ≠ .on r (.setJwks kids)) ∧ o ≠ .on r .close) p →
      Keeps (Publishes r q) (fun _ => True) p := by
    intro α p hp h hh
    refine hp.along (fun h o _ ho => ⟨⟨fun kids hk => absurd hk (ho.1 kids), fun hk => absurd hk ho.2⟩,
      fun _ => trivial⟩) hh
  refine along_handler ?_ (fun n => ?_) (fun C n reason => ?_) (hother ?_) C trivial q
    fun n hn h _ => ?_
  · intro h o _ ho
    refine ⟨⟨?_, ?_⟩, fun _ => trivial⟩
    · rintro kids rfl
      exact absurd ho id
    · rintro rfl
      exact absurd ho id
  · intro h _
    refine along_perform_bind.mpr ⟨⟨by simp, by simp⟩, trivial, fun kids => ?_⟩
    refine along_perform_bind.mpr ⟨⟨?_, by simp⟩, trivial, fun _ => trivial⟩
    intro kids' hkids
    cases hkids
    exact ⟨h, rfl⟩
  · refine hother ((only_perform _ (by simp)).bind fun keys => Only.onlyIf (Only.bind ?_ fun written =>
      Only.onlyIf (only_perform _ (by simp))))
    refine Only.recover ((only_perform _ (by simp)).bind fun _ => only_pure _) fun e => ?_
    exact (only_perform _ (by simp)).bind fun _ => (only_throwIf _ _).bind fun _ => only_pure _
  · exact only_rotationTransaction (by simp) (by simp)
  · refine (along_perform _ _).mpr ⟨⟨by simp, fun hk => ?_⟩, trivial, fun _ => trivial⟩
    cases hk
    exact hn

/-- The key of a token is the active one that was read for it. -/
theorem along_signCompactJws (claims : Claims) (purpose : Purpose) (h : List Cmd) :
    Along (fun _ _ => True) (fun h a => ∀ j, a = .ok j →
      (⟨.on r .activeKid, some (some j.kid)⟩ : Cmd) ∈ h) h (signCompactJws r claims purpose) := by
  refine along_perform_bind.mpr ⟨trivial, by simp, fun active => ?_⟩
  rw [along_bind, along_orThrow]
  refine ⟨fun _ => by simp, fun kid hkid => ?_⟩
  subst hkid
  refine Along.bind (Q := fun _ h => (⟨.on r .activeKid, some (some kid)⟩ : Cmd) ∈ h) ?_ fun failed h' hh => ?_
  · refine ((routine_sign kid purpose).along (J := fun h => (⟨.on r .activeKid, some (some kid)⟩ : Cmd) ∈ h)
      (fun h o hh _ => ⟨trivial, fun _ => List.mem_cons_of_mem _ hh⟩) List.mem_cons_self).mono
      (fun _ _ h => h) fun h' a hh => ?_
    cases a with
    | ok failed => exact hh
    | error e => simp
  · cases failed with
    | none =>
      rintro j ⟨⟩
      exact hh
    | some x =>
      -- A signature that failed is the end of the call, whatever becomes of its audit.
      refine Along.bind (Q := fun _ _ => True) ?_ fun _ _ _ => by simp
      refine (Only.along (C := Routine) (J := fun _ => True) ?_ (fun _ _ _ _ => ⟨trivial, fun _ => trivial⟩)
        trivial).mono (fun _ _ h => h) fun h' a _ => ?_
      · exact ((only_perform _ trivial).recover fun _ => only_pure _).onlyIf
      · cases a <;> simp

/-- A token that is handed out has the active key that its call has read. -/
theorem along_sign (payload : List (String × JsValue)) (audience : String) (ttlSeconds : ℕ)
    (jti : Option String) :
    Along (fun _ _ => True) (fun h a => ∀ j, a = .ok (.token j) →
      (⟨.on r .activeKid, some (some j.kid)⟩ : Cmd) ∈ h) []
      ((replicas C).handler (.sign r payload audience ttlSeconds jti)) := by
  have hsigned : ∀ h, Along (fun _ _ => True) (fun h a => ∀ j, a = .ok j →
      (⟨.on r .activeKid, some (some j.kid)⟩ : Cmd) ∈ h) h (signJwt C r payload audience ttlSeconds jti) := by
    intro h
    refine along_perform_bind.mpr ⟨trivial, by simp, fun now => ?_⟩
    refine Along.bind (Q := fun _ _ => True) ?_ fun _ h' _ => along_signCompactJws _ _ h'
    cases jti with
    | some x => exact trivial
    | none =>
      have hdrawn : Only (fun _ => True) (await .randomBytes) := only_perform _ trivial
      refine (hdrawn.along (J := fun _ => True) (fun _ _ _ _ => ⟨trivial, fun _ => trivial⟩)
        trivial).mono (fun _ _ h => h) fun h' a _ => ?_
      cases a <;> simp
  refine Along.bind (Q := fun j h => (⟨.on r .activeKid, some (some j.kid)⟩ : Cmd) ∈ h) ?_ ?_
  · refine (hsigned []).mono (fun _ _ h => h) fun h a ha => ?_
    cases a with
    | ok j => exact ha j rfl
    | error e => simp
  · rintro j h hh j' ⟨⟩
    exact hh

/-! ## The cache and the snapshot -/

/-- The answers of the table reach the replica in the order in which they were read, and no key is
loaded between the listing of the keys and their publication. -/
structure Orderly (r : ℕ) (tr : List Step) : Prop where
  installs : ∀ e ∈ tr, ∀ t rows a, e.event = .act t ⟨.on r (.install rows), a⟩ →
    (e.before.replica r).keys ⊆ rows.map (·.kid)
  publishes : ∀ e ∈ tr, ∀ t kids a, e.event = .act t ⟨.on r (.setJwks kids), a⟩ →
    (e.before.replica r).keys ⊆ kids

theorem Orderly.tail {e : Step} (h : Orderly r (e :: tr)) : Orderly r tr :=
  ⟨fun e he => h.installs e (List.mem_cons_of_mem _ he),
    fun e he => h.publishes e (List.mem_cons_of_mem _ he)⟩

/-- What a command of a replica does to its cache and to its snapshot. -/
theorem exec_keys {i : Input} {now : ℕ} {x x' : Replica} {o : LocalOp} {a : Option o.Res}
    (hx : o.exec i now x = some (a, x')) :
    ((∃ rows, o = .install rows ∧ x'.keys = rows.map (·.kid)) ∨ o = .close ∨ x'.keys = x.keys) ∧
      ((∃ kids, o = .setJwks kids ∧ x'.publicJwks = kids) ∨ x'.publicJwks = x.publicJwks) := by
  cases o with
  | sign k purpose =>
    simp only [LocalOp.exec] at hx
    split_ifs at hx
    · split at hx
      · simp only [Option.some.injEq, Prod.mk.injEq] at hx
        rw [← hx.2]
        simp
      · simp only [Option.some.injEq, Prod.mk.injEq] at hx
        rw [← hx.2]
        unfold Replica.recordSigningFailure
        dsimp only
        split_ifs <;> simp
      · simp at hx
    · simp only [Option.some.injEq, Prod.mk.injEq] at hx
      rw [← hx.2]
      simp
  | signingFailed k =>
    simp only [LocalOp.exec, Option.some.injEq, Prod.mk.injEq] at hx
    rw [← hx.2]
    unfold Replica.recordSigningFailure
    dsimp only
    split_ifs <;> simp
  | noteHealth healthy =>
    simp only [LocalOp.exec] at hx
    split_ifs at hx <;> simp only [Option.some.injEq, Prod.mk.injEq] at hx <;> rw [← hx.2] <;> simp
  | _ =>
    simp only [LocalOp.exec, Option.some.injEq, Prod.mk.injEq] at hx
    rw [← hx.2]
    simp

/-- No command closes the custody of a replica that is not stopped. -/
theorem not_close (hr : (replicas C).Reach tr c) (hopen : ∀ t, ¬ Arrived tr t (.shutdown r)) {e : Step}
    (he : e ∈ tr) {t : ℕ} {a : Option Unit} : e.event ≠ .act t ⟨.on r .close, a⟩ := by
  intro hev
  obtain ⟨k₁, k₂, rfl⟩ := List.append_of_mem he
  obtain ⟨s, ev⟩ := e
  simp only at hev
  subst hev
  obtain ⟨q, hq, hpath⟩ := hr.act_along along_publishes
  exact hopen t (hpath.2 rfl ▸ hq.mono (older_subset _ _))

/-- The key set that a call has listed is what the cache was. -/
theorem listed_eq (hr : (replicas C).Reach tr c) {t : ℕ} {kids : List String}
    (hd : Did tr t ⟨.on r .listPublicJwks, some kids⟩) :
    ∃ e ∈ tr, kids = (e.before.replica r).keys := by
  obtain ⟨l₁, s, l₂, rfl⟩ := hd.split
  refine ⟨_, List.mem_append_right _ List.mem_cons_self, ?_⟩
  obtain ⟨x, hst⟩ := (replicaObject C r).step_at ⟨.listPublicJwks, some kids⟩ hr
  rcases hst with ⟨i, now, hx⟩ | ⟨hnone, -⟩
  · simp only [LocalOp.exec, Option.some.injEq, Prod.mk.injEq] at hx
    exact hx.1.symm
  · simp at hnone

/-- The cache of a replica, and the snapshot in it, have grown over a run. -/
structure Grown (r : ℕ) (tr : List Step) (s : Store) : Prop where
  published : (s.replica r).publicJwks ⊆ (s.replica r).keys
  keys : ∀ e ∈ tr, (e.before.replica r).keys ⊆ (s.replica r).keys
  snapshots : ∀ e ∈ tr, (e.before.replica r).publicJwks ⊆ (s.replica r).publicJwks

/-- A step after which the cache and the snapshot are not smaller. -/
theorem Grown.cons {e : Event Op Op.Res Request} {s s' : Store} (h : Grown r tr s)
    (hkeys : (s.replica r).keys ⊆ (s'.replica r).keys)
    (hjwks : (s.replica r).publicJwks ⊆ (s'.replica r).publicJwks)
    (hpublished : (s'.replica r).publicJwks ⊆ (s'.replica r).keys) : Grown r (⟨s, e⟩ :: tr) s' := by
  refine ⟨hpublished, fun e' he' => ?_, fun e' he' => ?_⟩
  · rcases List.mem_cons.mp he' with rfl | he'
    · exact hkeys
    · exact List.Subset.trans (h.keys e' he') hkeys
  · rcases List.mem_cons.mp he' with rfl | he'
    · exact hjwks
    · exact List.Subset.trans (h.snapshots e' he') hjwks

theorem grown (hr : (replicas C).Reach tr c) (hopen : ∀ t, ¬ Arrived tr t (.shutdown r))
    (horder : Orderly r tr) : Grown r tr c.store := by
  induction hr with
  | init => exact ⟨by simp [replicas, Replica.new], by simp, by simp⟩
  | @step tr c m e c' hr hs ih =>
    have hold : Grown r tr c.store :=
      ih (fun t ha => hopen t (ha.mono (List.subset_cons_self _ _))) horder.tail
    have hr' : (replicas C).Reach (⟨c.store, e⟩ :: tr) c' := .step hr hs
    rcases (replicaObject C r).leads (Machine.step_leads hs) with ⟨t, ⟨o, a⟩, he, hst⟩ | ⟨-, hsame⟩
    swap
    · have hsame' : c'.store.replica r = c.store.replica r := hsame
      refine hold.cons ?_ ?_ ?_ <;> rw [hsame']
      · exact List.Subset.refl _
      · exact List.Subset.refl _
      · exact hold.published
    have hev : e = .act t ⟨.on r o, a⟩ := he
    subst hev
    rcases hst with ⟨i, now, hx⟩ | ⟨-, hsame⟩
    swap
    · have hsame' : c'.store.replica r = c.store.replica r := hsame
      refine hold.cons ?_ ?_ ?_ <;> rw [hsame']
      · exact List.Subset.refl _
      · exact List.Subset.refl _
      · exact hold.published
    obtain ⟨hcache, hsnapshot⟩ := exec_keys hx
    have hkeys : (c.store.replica r).keys ⊆ (c'.store.replica r).keys := by
      rcases hcache with ⟨rows, rfl, hrows⟩ | rfl | hkept
      · exact hrows ▸ horder.installs _ List.mem_cons_self t rows a rfl
      · exact absurd rfl (not_close hr' hopen List.mem_cons_self)
      · exact hkept ▸ List.Subset.refl _
    rcases hsnapshot with ⟨kids, rfl, hkids⟩ | hkept
    · -- What is published was listed, so that it is still in the cache, and nothing was loaded since.
      obtain ⟨q, -, hpath⟩ := Machine.Reach.act_along along_publishes hr'.newest
      obtain ⟨h', hlist⟩ := hpath.1 kids rfl
      have hdid : Did tr t ⟨.on r .listPublicJwks, some kids⟩ := by
        rw [← mem_own, hlist]
        exact List.mem_cons_self
      obtain ⟨e', he', hlisted⟩ := listed_eq hr hdid
      have hsub : kids ⊆ (c'.store.replica r).keys := by
        rw [hlisted]
        exact List.Subset.trans (hold.keys e' he') hkeys
      refine hold.cons hkeys ?_ (hkids ▸ hsub)
      rw [show (c'.store.replica r).publicJwks = kids from hkids]
      exact List.Subset.trans hold.published (horder.publishes _ List.mem_cons_self t kids a rfl)
    · have hkept' : (c'.store.replica r).publicJwks = (c.store.replica r).publicJwks := hkept
      refine hold.cons hkeys ?_ ?_ <;> rw [hkept']
      · exact List.Subset.refl _
      · exact List.Subset.trans hold.published hkeys

/-- Whenever a call of `signJwt` reads the active key of the cache, that key is published. -/
def SignsPublished (r : ℕ) (tr : List Step) : Prop :=
  ∀ e ∈ tr, ∀ t kid payload audience ttlSeconds jti,
    e.event = .act t ⟨.on r .activeKid, some (some kid)⟩ →
    Arrived tr t (.sign r payload audience ttlSeconds jti) → kid ∈ (e.before.replica r).publicJwks

/-- The published keys cover every token handed out. In every run of a replica in which `signJwt` reads
the active key of the cache only while it is published, and in which the answers of the table arrive in
order, the key of a token that was returned is in every later result of `jwks`. -/
theorem jwks_covers (hr : (replicas C).Reach tr c) (hopen : ∀ t, ¬ Arrived tr t (.shutdown r))
    (horder : Orderly r tr) (hsigns : SignsPublished r tr) {t : ℕ} {payload : List (String × JsValue)}
    {audience : String} {ttlSeconds : ℕ} {jti : Option String} {j : Jws}
    (harrived : Arrived tr t (.sign r payload audience ttlSeconds jti))
    (hret : c.calls[t]? = some (.ret (.token j))) {m : Move Request Input} {u : ℕ} {kids : List String}
    {c' : State} (hjwks : (replicas C).step c m = some (.act u ⟨.on r .jwks, some kids⟩, c')) :
    j.kid ∈ kids := by
  -- What `jwks` returns is the snapshot.
  have hkids : kids = (c.store.replica r).publicJwks := by
    have hr' : (replicas C).Reach ([] ++ ⟨c.store, .act u ⟨.on r .jwks, some kids⟩⟩ :: tr) c' :=
      .step hr hjwks
    obtain ⟨x, hst⟩ := (replicaObject C r).step_at ⟨.jwks, some kids⟩ hr'
    rcases hst with ⟨i, now, hx⟩ | ⟨hnone, -⟩
    · simp only [LocalOp.exec, Option.some.injEq, Prod.mk.injEq] at hx
      exact hx.1.symm
    · simp at hnone
  have hread := hr.ret_of_arrived harrived hret (along_sign payload audience ttlSeconds jti) j rfl
  obtain ⟨e, he, hev⟩ := mem_own.mp hread
  have hpublished := hsigns e he t j.kid payload audience ttlSeconds jti hev harrived
  rw [hkids]
  exact (grown hr hopen horder).snapshots e he hpublished

/-! ## A key that is not published, and one that is -/

/-- Replica 0 boots with the key `first`, and a probe finds the table out of reach. -/
def sampleUnhealthy : List (Move Request Input) :=
  sampleFirstBoot 0 0 "first" ++ goes 0 (List.replicate 5 .unit) ++
    [.arrive (.probe 0), .fail 1, .go 1 .unit, .go 1 .unit]

/-- Replica 1 boots and rotates to the key `second`. -/
def sampleElsewhere : List (Move Request Input) :=
  .arrive (.boot 1 0) :: goes 2 (List.replicate 5 .unit) ++
    .arrive (.rotate 1 0) :: goes 3 [.unit, .unit, .unit, .unit, .unit, .text "second", .unit, .unit]

/-- The next probe of replica 0 has reloaded its keys, and waits for the audit of its recovery, while
call 5 signs a token. Call 6 is about to ask for the published keys. -/
def sampleGap : List (Move Request Input) :=
  sampleUnhealthy ++ sampleElsewhere ++
    .arrive (.probe 0) :: goes 4 [.unit, .unit, .unit, .unit] ++
    .arrive (.sign 0 [] "audience" 60 none) :: goes 5 [.unit, .text "jti", .unit, .signature true] ++
    [.arrive (.jwks 0)]

/-- Replica 0 boots, call 1 signs a token, and call 2 is about to ask for the published keys. -/
def sampleToken : List (Move Request Input) :=
  sampleFirstBoot 0 0 "first" ++ goes 0 (List.replicate 5 .unit) ++
    .arrive (.sign 0 [] "audience" 60 none) :: goes 1 [.unit, .text "jti", .unit, .signature true] ++
    [.arrive (.jwks 0)]

/-- The keys that call `u` is told when it asks replica 0 for them. -/
def asks (u : ℕ) (c : State) : Option (List String) :=
  match (replicas sampleConfig).step c (.go u .unit) with
  | some (.act _ ⟨.on 0 .jwks, some kids⟩, _) => some kids
  | _ => none

theorem asks_eq_some {u : ℕ} {kids : List String} (h : asks u c = some kids) :
    ∃ v c', (replicas sampleConfig).step c (.go u .unit) = some (.act v ⟨.on 0 .jwks, some kids⟩, c') := by
  unfold asks at h
  split at h
  · rename_i v kids' c' hs
    cases h
    exact ⟨v, c', hs⟩
  · simp at h

/-- The token that call `t` has returned. -/
def returned (t : ℕ) (c : State) : Option Jws :=
  match c.calls[t]? with
  | some (.ret (.token j)) => some j
  | _ => none

theorem returned_eq_some {t : ℕ} {j : Jws} (h : returned t c = some j) :
    c.calls[t]? = some (.ret (.token j)) := by
  unfold returned at h
  split at h
  · rename_i j' hret
    cases h
    exact hret
  · simp at h

/-- A replica hands out a token whose key it does not publish: its probe was waiting between the reload
and the refresh. -/
theorem not_covered_sampleGap :
    ∃ tr c j kids v c', (replicas sampleConfig).Reach tr c ∧
      c.calls[5]? = some (.ret (.token j)) ∧
      (replicas sampleConfig).step c (.go 6 .unit) = some (.act v ⟨.on 0 .jwks, some kids⟩, c') ∧
      j.kid ∉ kids := by
  obtain ⟨tr, c, hr, hp⟩ := (replicas sampleConfig).exists_of_play sampleGap.reverse
    (p := fun x => (returned 5 x.2).any fun j => (asks 6 x.2).any fun kids => !kids.contains j.kid)
    (by decide +kernel)
  obtain ⟨j, hj, hp⟩ := (Option.any_eq_true _ _).mp hp
  obtain ⟨kids, hkids, hp⟩ := (Option.any_eq_true _ _).mp hp
  obtain ⟨v, c', hs⟩ := asks_eq_some hkids
  exact ⟨tr, c, j, kids, v, c', hr, returned_eq_some hj, hs, by simpa using hp⟩

/-- Whether a step keeps the cache and the snapshot of replica 0 in order, and signs with a published
key. -/
def isOrderly (e : Step) : Bool :=
  match e.event with
  | .act _ ⟨.on 0 (.install rows), _⟩ => (e.before.replica 0).keys.all (rows.map (·.kid)).contains
  | .act _ ⟨.on 0 (.setJwks kids), _⟩ => (e.before.replica 0).keys.all kids.contains
  | .act _ ⟨.on 0 .activeKid, some (some kid)⟩ => (e.before.replica 0).publicJwks.contains kid
  | .arrive _ (.shutdown _) => false
  | _ => true

theorem orderly_of_all (h : tr.all isOrderly = true) :
    (∀ t, ¬ Arrived tr t (.shutdown 0)) ∧ Orderly 0 tr ∧ SignsPublished 0 tr := by
  have hall := List.all_eq_true.mp h
  refine ⟨?_, ⟨?_, ?_⟩, ?_⟩
  · rintro t ⟨e, he, hev⟩
    simpa [isOrderly, hev] using hall e he
  · intro e he t rows a hev kid hkid
    have hkeys := hall e he
    simp only [isOrderly, hev, List.all_eq_true, List.contains_iff_mem] at hkeys
    exact hkeys kid hkid
  · intro e he t kids a hev kid hkid
    have hkeys := hall e he
    simp only [isOrderly, hev, List.all_eq_true, List.contains_iff_mem] at hkeys
    exact hkeys kid hkid
  · intro e he t kid payload audience ttlSeconds jti hev _
    simpa [isOrderly, hev] using hall e he

/-- The entry is the arrival of the request for the first token. -/
def asksForToken (e : Step) : Bool :=
  match e.event with
  | .arrive 1 (.sign 0 [] "audience" 60 none) => true
  | _ => false

theorem event_of_asksForToken {e : Step} (h : asksForToken e = true) :
    e.event = .arrive 1 (.sign 0 [] "audience" 60 none) := by
  unfold asksForToken at h
  split at h
  · assumption
  · simp at h

/-- The key of the first token is published. -/
theorem jwks_covers_sampleToken :
    ∃ tr c j kids v c', (replicas sampleConfig).Reach tr c ∧
      c.calls[1]? = some (.ret (.token j)) ∧
      (replicas sampleConfig).step c (.go 2 .unit) = some (.act v ⟨.on 0 .jwks, some kids⟩, c') ∧
      j.kid ∈ kids := by
  obtain ⟨tr, c, hr, hp⟩ := (replicas sampleConfig).exists_of_play sampleToken.reverse
    (p := fun x => x.1.all isOrderly && (returned 1 x.2).isSome && (asks 2 x.2).isSome && x.1.any asksForToken)
    (by decide +kernel)
  simp only [Bool.and_eq_true, Option.isSome_iff_exists, List.any_eq_true] at hp
  obtain ⟨⟨⟨horder, j, hj⟩, kids, hkids⟩, e, he, hev⟩ := hp
  obtain ⟨v, c', hs⟩ := asks_eq_some hkids
  obtain ⟨hopen, horderly, hsigns⟩ := orderly_of_all horder
  have harrived : Arrived tr 1 (.sign 0 [] "audience" 60 none) := ⟨e, he, event_of_asksForToken hev⟩
  exact ⟨tr, c, j, kids, v, c', hr, returned_eq_some hj, hs,
    jwks_covers hr hopen horderly hsigns harrived (returned_eq_some hj) hs⟩

end SdidBridge.Keys
