import SdidBridge.Audit.Evidence

/-!
# Whether the service can verify what it has appended

`append` hashes the event that its caller passed, and `verifyChain` hashes what the columns give
back. The two texts are the same in every field but the ids: a `jsonb` column gives back the value
up to the order of keys, which the canonical text does not show, while a uuid column gives back the
canonical spelling of an id, and the hash was computed over the spelling of the caller. So the chain
verifies exactly when every caller passed canonical ids.
-/

namespace SdidBridge

mutual

/-- Whether JSON can carry a value: an undefined member is left out, and there is no undefined
element. -/
def JsValue.serialisable : JsValue → Bool
  | .undefined => false
  | .null => true
  | .bool _ => true
  | .num _ => true
  | .str _ => true
  | .arr vs => elementsSerialisable vs
  | .obj ms => membersSerialisable ms

/-- Whether JSON can carry the elements of an array. -/
def elementsSerialisable : List JsValue → Bool
  | [] => true
  | v :: vs => v.serialisable && elementsSerialisable vs

/-- Whether JSON can carry the members of an object. -/
def membersSerialisable : List (String × JsValue) → Bool
  | [] => true
  | (_, v) :: ms => (v.isUndefined || v.serialisable) && membersSerialisable ms

end

theorem isUndefined_toJson (v : JsValue) : (toJson v).isUndefined = false := by
  cases v with
  | num n => simp only [toJson]; split_ifs <;> rfl
  | _ => rfl

/-- The canonical text is the same before and after `JSON.stringify`. -/
theorem stableStringify_toJson {v : JsValue} (hv : v.serialisable = true) :
    stableStringify (toJson v) = stableStringify v := by
  induction v using JsValue.induct with
  | undefined => simp [JsValue.serialisable] at hv
  | null => rfl
  | bool b => rfl
  | num n =>
    simp only [toJson]
    split_ifs with h
    · rfl
    · cases n <;> first | rfl | simp [JsNumber.isFinite] at h
  | str s => rfl
  | arr vs ih =>
    simp only [JsValue.serialisable] at hv
    have h : stableElements (toJsonElements vs) = stableElements vs := by
      induction vs with
      | nil => rfl
      | cons v vs ihs =>
        simp only [elementsSerialisable, Bool.and_eq_true] at hv
        rw [toJsonElements, stableElements, stableElements, ih v List.mem_cons_self hv.1,
          ihs (fun v hv => ih v (List.mem_cons_of_mem _ hv)) hv.2]
    rw [toJson, stableStringify, stableStringify, h]
  | obj ms ih =>
    simp only [JsValue.serialisable] at hv
    have h : stableEntries (toJsonMembers ms) = stableEntries ms := by
      induction ms with
      | nil => rfl
      | cons m ms ihs =>
        obtain ⟨k, v⟩ := m
        simp only [membersSerialisable, Bool.and_eq_true, Bool.or_eq_true] at hv
        have hrest := ihs (fun m hm => ih m (List.mem_cons_of_mem _ hm)) hv.2
        rw [toJsonMembers, stableEntries]
        split_ifs with hu
        · exact hrest
        · rw [stableEntries, isUndefined_toJson, hrest,
            ih (k, v) List.mem_cons_self (hv.1.resolve_left hu)]
          rfl
    rw [toJson, stableStringify, stableStringify, h]

namespace AuditFields

/-- No field is undefined. -/
def Defined (f : AuditFields) : Prop := ∀ m ∈ fieldList, (m.2 f).isUndefined = false

/-- The hashed text is made of the canonical texts of the fields. -/
theorem text_congr {f g : AuditFields} (hf : f.Defined) (hg : g.Defined)
    (h : ∀ m ∈ fieldList, stableStringify (m.2 f) = stableStringify (m.2 g)) : f.text = g.text := by
  have hentries : ∀ (f : AuditFields) (l : List (String × (AuditFields → JsValue))),
      (∀ m ∈ l, (m.2 f).isUndefined = false) →
      stableEntries (l.map fun m => (m.1, m.2 f)) =
        l.map fun m => (m.1, stableStringify (m.2 f)) := by
    intro f l hl
    induction l with
    | nil => rfl
    | cons m l ih =>
      rw [List.map_cons, stableEntries, hl m List.mem_cons_self,
        ih fun m hm => hl m (List.mem_cons_of_mem _ hm)]
      rfl
  have hmap : (fieldList.map fun m => (m.1, stableStringify (m.2 f))) =
      fieldList.map fun m => (m.1, stableStringify (m.2 g)) :=
    List.map_congr_left fun m hm => by rw [h m hm]
  rw [text, text, toJs_eq, toJs_eq, stableStringify, stableStringify, hentries f _ hf, hentries g _ hg,
    hmap]

/-- The fields with the values that `JSON.stringify` writes. -/
def written (f : AuditFields) : AuditFields :=
  { f with
    actor := toJson f.actor
    matchResult := f.matchResult.map toJson
    context := f.context.map toJson }

/-- The values among the fields can be carried by JSON. -/
def Serialisable (f : AuditFields) : Prop :=
  f.actor.serialisable = true ∧ (∀ v, f.matchResult = some v → v.serialisable = true) ∧
    ∀ v, f.context = some v → v.serialisable = true

theorem isUndefined_textOrNull (s : Option String) : (textOrNull s).isUndefined = false := by
  cases s <;> rfl

theorem Serialisable.not_undefined {v : JsValue} (hv : v.serialisable = true) :
    v.isUndefined = false := by
  cases v <;> simp_all [JsValue.serialisable, JsValue.isUndefined]

/-- A field is not undefined when the values among the fields are not. -/
theorem defined_of {f : AuditFields} (hactor : f.actor.isUndefined = false)
    (hmatch : (f.matchResult.getD .null).isUndefined = false)
    (hcontext : (f.context.getD .null).isUndefined = false) : f.Defined := by
  simp only [Defined, fieldList, List.forall_mem_cons, List.not_mem_nil, false_imp_iff,
    implies_true, and_true]
  exact ⟨rfl, rfl, hactor, rfl, isUndefined_textOrNull _, isUndefined_textOrNull _,
    isUndefined_textOrNull _, isUndefined_textOrNull _, hmatch, isUndefined_textOrNull _, rfl,
    hcontext⟩

theorem IsJson.defined {f : AuditFields} (hf : f.IsJson) : f.Defined := fun m hm => by
  have := hf.field m hm
  cases hv : m.2 f <;> simp_all [JsValue.isUndefined, JsValue.isJson]

theorem Serialisable.defined {f : AuditFields} (hf : f.Serialisable) : f.Defined := by
  obtain ⟨hactor, hmatch, hcontext⟩ := hf
  refine defined_of (Serialisable.not_undefined hactor) ?_ ?_
  · cases h : f.matchResult with
    | none => rfl
    | some v => exact Serialisable.not_undefined (hmatch v h)
  · cases h : f.context with
    | none => rfl
    | some v => exact Serialisable.not_undefined (hcontext v h)

theorem isJson_written (f : AuditFields) : f.written.IsJson := by
  have hopt : ∀ x : Option JsValue, ((x.map toJson).getD .null).isJson = true := by
    intro x
    cases x with
    | none => rfl
    | some v => exact isJson_toJson v
  exact ⟨isJson_toJson _, hopt _, hopt _⟩

/-- `JSON.stringify` does not change the hashed text. -/
theorem text_written {f : AuditFields} (hf : f.Serialisable) : f.written.text = f.text := by
  have hopt : ∀ x : Option JsValue, (∀ v, x = some v → v.serialisable = true) →
      stableStringify ((x.map toJson).getD .null) = stableStringify (x.getD .null) := by
    intro x hx
    cases x with
    | none => rfl
    | some v => exact stableStringify_toJson (hx v rfl)
  refine text_congr f.isJson_written.defined hf.defined ?_
  simp only [fieldList, List.forall_mem_cons, List.not_mem_nil, false_imp_iff, implies_true,
    and_true]
  exact ⟨rfl, rfl, stableStringify_toJson hf.1, rfl, rfl, rfl, rfl, rfl, hopt _ hf.2.1, rfl, rfl,
    hopt _ hf.2.2⟩

end AuditFields

/-- The values of an event can be carried by JSON. -/
def AuditEventInput.Serialisable (e : AuditEventInput) : Prop :=
  e.actor.serialisable = true ∧ (∀ v, e.matchResult = some v → v.serialisable = true) ∧
    ∀ v, e.context = some v → v.serialisable = true

/-- The ids of an event are spelled as Postgres prints them. -/
def AuditEventInput.CanonicalIds (e : AuditEventInput) : Prop :=
  ∀ s, e.rpId = some s ∨ e.deviceBindingId = some s → ∃ u : Uuid, s = u.text

/-- One call of `append`: the event, with the id and the time that the call drew, and the sequence
numbers that were lost before it. -/
structure AppendCall where
  /-- The event. -/
  event : AuditEventInput
  /-- The id. -/
  id : Uuid
  /-- The time, in milliseconds. -/
  ts : ℤ
  /-- How many sequence numbers the identity column passed over. -/
  skipped : ℕ := 0

namespace AuditDeps

variable (D : AuditDeps)

/-- A sequence of calls of `append` on an empty table: the table after them when all succeed. -/
def appendAll (calls : List AppendCall) : Option (List AuditRow) :=
  calls.foldlM (fun rows c => D.append rows c.skipped c.id c.ts c.event) []

/-- The texts that the calls and the verification of their rows hash. -/
def appendInputs (calls : List AppendCall) (rows : List AuditRow) : Set String :=
  hashInputs rows ∪ {s | ∃ c ∈ calls, ∃ r ∈ rows, s = r.prevHash ++ (c.event.fields c.id c.ts).text}

/-- A column's value for an id, and the text that it gives back. -/
theorem uuidColumn_canonical {s : Option String} {u : Option Uuid} (h : uuidColumn s = some u) :
    u.map (·.text) = s ↔ ∀ t, s = some t → ∃ v : Uuid, t = v.text := by
  cases s with
  | none =>
    simp only [uuidColumn, Option.some.injEq] at h
    simp [← h]
  | some s =>
    simp only [uuidColumn, Option.map_eq_some_iff] at h
    obtain ⟨v, hv, rfl⟩ := h
    simp only [Option.map_some, Option.some.injEq, forall_eq']
    constructor
    · intro hs
      exact ⟨v, hs.symm⟩
    · rintro ⟨w, rfl⟩
      rw [Uuid.ofText_text, Option.some.injEq] at hv
      rw [hv]

section

variable {D} (hjsonb : ∀ v, v.isJson = true → canonical (D.jsonb v).value = canonical v)

include hjsonb

/-- The text that a stored row is hashed as is the one that its event was hashed as exactly when the
ids of the event are canonical. -/
theorem rowOf_text {prev : String} {seq : ℕ} {id : Uuid} {ts : ℤ} {e : AuditEventInput}
    {row : AuditRow} (he : e.Serialisable) (h : D.rowOf prev seq id ts e = some row) :
    row.fields.text = (e.fields id ts).text ↔ e.CanonicalIds := by
  have hf : (e.fields id ts).Serialisable := he
  unfold rowOf at h
  split at h
  · rename_i rpId bindingId hrp hbinding
    simp only [Option.some.injEq] at h
    have hcanon : e.CanonicalIds ↔ rpId.map (·.text) = e.rpId ∧
        bindingId.map (·.text) = e.deviceBindingId := by
      rw [uuidColumn_canonical hrp, uuidColumn_canonical hbinding]
      constructor
      · exact fun h => ⟨fun t ht => h t (.inl ht), fun t ht => h t (.inr ht)⟩
      · rintro ⟨h₁, h₂⟩ t (ht | ht)
        · exact h₁ t ht
        · exact h₂ t ht
    have hvalue : ∀ v, stableStringify (D.jsonb (toJson v)).value = stableStringify (toJson v) := by
      intro v
      rw [stableStringify_eq, hjsonb _ (isJson_toJson v), ← stableStringify_eq]
    have hopt : ∀ x : Option JsValue,
        stableStringify (((x.map fun v => D.jsonb (toJson v)).map Jsonb.value).getD .null) =
          stableStringify ((x.map toJson).getD .null) := by
      intro x
      cases x with
      | none => rfl
      | some v => exact hvalue v
    rw [hcanon, ← AuditFields.text_written hf]
    constructor
    · intro htext
      have hall := AuditFields.text_inj row.isJson_fields (AuditFields.isJson_written _) htext
      simp only [fieldList, List.forall_mem_cons, List.not_mem_nil, false_imp_iff, implies_true,
        and_true] at hall
      obtain ⟨-, -, -, -, -, hr, hb, -⟩ := hall
      rw [← h] at hr hb
      exact ⟨AuditRow.textOrNull_inj hr, AuditRow.textOrNull_inj hb⟩
    · rintro ⟨hr, hb⟩
      refine AuditFields.text_congr row.isJson_fields.defined
        (AuditFields.isJson_written _).defined ?_
      simp only [fieldList, List.forall_mem_cons, List.not_mem_nil, false_imp_iff, implies_true,
        and_true, ← h]
      exact ⟨rfl, rfl, hvalue _, rfl, rfl, congrArg (stableStringify ∘ textOrNull) hr,
        congrArg (stableStringify ∘ textOrNull) hb, rfl, hopt _, rfl, rfl, hopt _⟩
  · simp at h

omit hjsonb in
/-- The last of a sequence of successful appends adds its row to what the others left. -/
theorem appendAll_concat {calls : List AppendCall} {c : AppendCall} {rows : List AuditRow}
    (h : D.appendAll (calls ++ [c]) = some rows) :
    ∃ rows₀ seq row, D.appendAll calls = some rows₀ ∧
      D.rowOf (lastHash rows₀) seq c.id c.ts c.event = some row ∧ rows = rows₀ ++ [row] := by
  simp only [appendAll, List.foldlM_append, List.foldlM_cons, List.foldlM_nil, bind_pure] at h
  obtain ⟨rows₀, hrows₀, h⟩ := Option.bind_eq_some_iff.mp h
  simp only [append, Option.map_eq_some_iff] at h
  obtain ⟨row, hrow, rfl⟩ := h
  exact ⟨rows₀, _, row, hrows₀, hrow, rfl⟩

omit hjsonb in
/-- A stored row links to the hash that it was given, and has the hash of its event. -/
theorem rowOf_hash {prev : String} {seq : ℕ} {id : Uuid} {ts : ℤ} {e : AuditEventInput}
    {row : AuditRow} (h : D.rowOf prev seq id ts e = some row) :
    row.prevHash = prev ∧ row.hash = D.computeHash prev (e.fields id ts) := by
  unfold rowOf at h
  split at h
  · simp only [Option.some.injEq] at h
    rw [← h]
    exact ⟨rfl, rfl⟩
  · simp at h

/-- After any sequence of successful appends, `verifyChain` reports an intact chain with as many rows
as there were appends if and only if every id was passed in its canonical spelling. -/
theorem verifyChain_appendAll_iff {calls : List AppendCall} {rows : List AuditRow}
    (hcalls : ∀ c ∈ calls, c.event.Serialisable) (hrun : D.appendAll calls = some rows)
    (hinj : Set.InjOn D.sha256 (appendInputs calls rows)) :
    D.verifyChain rows = ⟨true, none, calls.length⟩ ↔ ∀ c ∈ calls, c.event.CanonicalIds := by
  have hlength : rows.length = calls.length := by
    clear hcalls hinj
    induction calls using List.reverseRecOn generalizing rows with
    | nil =>
      simp only [appendAll, List.foldlM_nil, pure, Option.some.injEq] at hrun
      simp [← hrun]
    | append_singleton cs c ih =>
      obtain ⟨rows₀, seq, row, hrows₀, -, rfl⟩ := appendAll_concat hrun
      simp [ih hrows₀]
  rw [← hlength, verifyChain_eq]
  clear hlength
  -- From the last call back to the first: the row of each is checked against its own event.
  induction calls using List.reverseRecOn generalizing rows with
  | nil =>
    simp only [appendAll, List.foldlM_nil, pure, Option.some.injEq] at hrun
    simp [← hrun, Chained]
  | append_singleton cs c ih =>
    obtain ⟨rows₀, seq, row, hrows₀, hrow, rfl⟩ := appendAll_concat hrun
    obtain ⟨hprev, hhash⟩ := rowOf_hash hrow
    have hsub : appendInputs cs rows₀ ⊆ appendInputs (cs ++ [c]) (rows₀ ++ [row]) := by
      rintro s (⟨r, hr, rfl⟩ | ⟨x, hx, r, hr, rfl⟩)
      · exact .inl ⟨r, by simp [hr], rfl⟩
      · exact .inr ⟨x, by simp [hx], r, by simp [hr], rfl⟩
    have hrest : D.Chained GENESIS_HASH rows₀ ↔ ∀ x ∈ cs, x.event.CanonicalIds := ih (fun x hx => hcalls x (by simp [hx])) hrows₀ (hinj.mono hsub)
    have hlast : D.computeHash row.prevHash row.fields = row.hash ↔ c.event.CanonicalIds := by
      rw [← rowOf_text hjsonb (hcalls c (by simp)) hrow, hhash, ← hprev]
      constructor
      · intro hdigest
        have hin : row.prevHash ++ row.fields.text = row.prevHash ++ (c.event.fields c.id c.ts).text :=
          hinj (.inl ⟨row, by simp, rfl⟩) (.inr ⟨c, by simp, row, by simp, rfl⟩) hdigest
        exact (String.append_right_inj _).mp hin
      · intro htext
        rw [computeHash, computeHash, htext]
    rw [D.chained_append, hrest, hlast]
    constructor
    · rintro ⟨hcs, -, hc⟩ x hx
      rcases List.mem_append.mp hx with hx | hx
      · exact hcs x hx
      · rw [List.mem_singleton.mp hx]
        exact hc
    · intro hall
      exact ⟨fun x hx => hall x (by simp [hx]), hprev, hall c (by simp)⟩

end

/-- What is JSON is written as it is. -/
theorem toJson_of_isJson {v : JsValue} (hv : v.isJson = true) : toJson v = v := by
  induction v using JsValue.induct with
  | undefined => simp [JsValue.isJson] at hv
  | null => rfl
  | bool b => rfl
  | num n => exact if_pos hv
  | str s => rfl
  | arr vs ih =>
    simp only [JsValue.isJson] at hv
    rw [toJson, JsValue.arr.injEq]
    induction vs with
    | nil => rfl
    | cons v vs ihs =>
      simp only [elementsJson, Bool.and_eq_true] at hv
      rw [toJsonElements, ih v List.mem_cons_self hv.1,
        ihs (fun v hv => ih v (List.mem_cons_of_mem _ hv)) hv.2]
  | obj ms ih =>
    simp only [JsValue.isJson] at hv
    rw [toJson, JsValue.obj.injEq]
    induction ms with
    | nil => rfl
    | cons m ms ihs =>
      obtain ⟨k, v⟩ := m
      simp only [membersJson, Bool.and_eq_true] at hv
      have hdef : v.isUndefined = false := by
        cases v <;> simp_all [JsValue.isJson, JsValue.isUndefined]
      rw [toJsonMembers, hdef, ih (k, v) List.mem_cons_self hv.1,
        ihs (fun m hm => ih m (List.mem_cons_of_mem _ hm)) hv.2]
      rfl

/-- The registration of a relying party, whose id is the one that was drawn for it. -/
def registrationCall : AppendCall where
  event := {
    actor := .obj [("type", .str "admin")]
    action := .rpRegistered
    rpId := some (sampleUuid 2).text
    result := .success
    context := some sampleContext.value }
  id := sampleUuid 1
  ts := 1767225600000

/-- The row of that registration. -/
theorem appendAll_registrationCall :
    sampleDeps.appendAll [registrationCall] = some [sampleRow sampleContext] := by
  have hrp : uuidColumn registrationCall.event.rpId = some (some (sampleUuid 2)) := by
    rw [registrationCall, uuidColumn, Uuid.ofText_text, Option.map_some]
  have hhash : sampleDeps.computeHash GENESIS_HASH
      (registrationCall.event.fields registrationCall.id registrationCall.ts) =
        (sampleRow sampleContext).hash := by
    change sampleDeps.sha256 (GENESIS_HASH ++ (sampleRow sampleContext).fields.text) = _
    rw [sampleRow_text.1, sampleDeps_sha256]
    rfl
  simp only [appendAll, List.foldlM_cons, List.foldlM_nil, append, rowOf, hrp, bind_pure]
  rw [show lastHash [] = GENESIS_HASH from rfl, hhash]
  rfl

/-- A registration passes its id as it was drawn, and its chain is intact. -/
theorem verifyChain_registrationCall :
    sampleDeps.verifyChain [sampleRow sampleContext] = ⟨true, none, 1⟩ := by
  refine (verifyChain_appendAll_iff (fun v hv => congrArg canonical (toJson_of_isJson hv)) ?_
    appendAll_registrationCall ?_).mpr ?_
  · rintro c hc
    rw [List.mem_singleton.mp hc]
    exact ⟨rfl, by simp [registrationCall], by simp [registrationCall, sampleContext]; rfl⟩
  · have hinput : ∀ s ∈ appendInputs [registrationCall] [sampleRow sampleContext],
        s = sampleText := by
      rintro s (⟨r, hr, rfl⟩ | ⟨c, hc, r, hr, rfl⟩)
      · rw [List.mem_singleton.mp hr]
        exact sampleRow_text.1
      · rw [List.mem_singleton.mp hr, List.mem_singleton.mp hc]
        exact sampleRow_text.1
    intro s hs t ht _
    rw [hinput s hs, hinput t ht]
  · rintro c hc s hs
    rw [List.mem_singleton.mp hc] at hs
    rcases hs with hs | hs
    · exact ⟨sampleUuid 2, by simpa [registrationCall] using hs.symm⟩
    · simp [registrationCall] at hs

/-- The text that a login challenge is hashed as, with the binding's id in the given spelling. -/
def challengeText (bindingId : String) : String :=
  "genesis\x7b\"action\":\"auth.challenge_issued\"," ++
    "\"actor\":\x7b\"id\":\"019b76da-a800-7000-8000-000000000004\"," ++
    "\"type\":\"citizen\"\x7d,\"assurance\":null," ++
    "\"context\":\x7b\"purpose\":\"login\"\x7d,\"deviceBindingId\":\"" ++
    bindingId ++
    "\",\"id\":\"019b76da-a800-7000-8000-000000000001\",\"matchResult\":null," ++
    "\"result\":\"success\",\"rpId\":null,\"sdidTxnRef\":null," ++
    "\"subjectRef\":\"019b76da-a800-7000-8000-000000000004\"," ++
    "\"ts\":\"2026-01-01T00:00:00.000Z\"\x7d"

/-- The binding's id as a client may write it. -/
def upperCaseId : String := "019B76DA-A800-7000-8000-000000000003"

/-- The digests of the challenge's two texts. -/
def challengeDeps : AuditDeps where
  sha256 s := if s = challengeText upperCaseId then
      "1b580e965be7c85557775fd994c8aa7891c09eaed1c2793610fc51a6250c3b87"
    else if s = challengeText (sampleUuid 3).text then
      "7bdba47ada4f9042c8b20d03b978c4f280056c7ce6f78b9ddc83da3a90de0537"
    else "0000000000000000000000000000000000000000000000000000000000000000"
  jsonb v := ⟨toJson v, isJson_toJson v⟩

/-- The event of a login challenge that a client asked for with an upper-case id. -/
def upperCaseCall : AppendCall where
  event := {
    actor := .obj [("type", .str "citizen"), ("id", .str (sampleUuid 4).text)]
    action := .authChallengeIssued
    subjectRef := some (sampleUuid 4).text
    deviceBindingId := some upperCaseId
    result := .success
    context := some (.obj [("purpose", .str "login")]) }
  id := sampleUuid 1
  ts := 1767225600000

/-- The row of the challenge. -/
def upperCaseRow : AuditRow where
  seq := 1
  id := sampleUuid 1
  ts := 1767225600000
  actor := ⟨.obj [("type", .str "citizen"), ("id", .str (sampleUuid 4).text)], rfl⟩
  action := "auth.challenge_issued"
  subjectRef := some (sampleUuid 4).text
  rpId := none
  deviceBindingId := some (sampleUuid 3)
  assurance := none
  matchResult := none
  sdidTxnRef := none
  result := "success"
  context := some ⟨.obj [("purpose", .str "login")], rfl⟩
  prevHash := GENESIS_HASH
  hash := "1b580e965be7c85557775fd994c8aa7891c09eaed1c2793610fc51a6250c3b87"

/-- The challenge is hashed with the id as the client spells it. -/
theorem upperCaseCall_text : GENESIS_HASH ++ (upperCaseCall.event.fields upperCaseCall.id upperCaseCall.ts).text =
    challengeText upperCaseId := by
  rw [← String.toList_inj]
  unfold AuditFields.text GENESIS_HASH challengeText
  simp only [String.toList_append, String.toList_ofList]
  decide +kernel

theorem challengeDeps_sha256 : challengeDeps.sha256 (challengeText upperCaseId) = upperCaseRow.hash := by
  simp only [challengeDeps, if_true]
  rfl

/-- No other text has that digest. -/
theorem challengeDeps_sha256_ne {s : String} (h : s ≠ challengeText upperCaseId) :
    challengeDeps.sha256 s ≠ upperCaseRow.hash := by
  simp only [challengeDeps, if_neg h]
  split_ifs <;> decide

/-- The row is appended. -/
theorem appendAll_upperCaseCall : challengeDeps.appendAll [upperCaseCall] = some [upperCaseRow] := by
  have hbinding : uuidColumn upperCaseCall.event.deviceBindingId = some (some (sampleUuid 3)) := by decide +kernel
  have hhash : challengeDeps.computeHash GENESIS_HASH
      (upperCaseCall.event.fields upperCaseCall.id upperCaseCall.ts) = upperCaseRow.hash := by
    rw [computeHash, upperCaseCall_text, challengeDeps_sha256]
  have hrp : uuidColumn upperCaseCall.event.rpId = some none := rfl
  simp only [appendAll, List.foldlM_cons, List.foldlM_nil, append, rowOf, hrp, hbinding, bind_pure]
  rw [show lastHash [] = GENESIS_HASH from rfl, hhash]
  rfl

/-- The row that is read back has another text, since its id is in lower case. -/
theorem upperCaseRow_text : GENESIS_HASH ++ upperCaseRow.fields.text ≠ challengeText upperCaseId := by
  intro h
  rw [← upperCaseCall_text] at h
  have hcall : (upperCaseCall.event.fields upperCaseCall.id upperCaseCall.ts).IsJson :=
    ⟨rfl, rfl, rfl⟩
  have hall := AuditFields.text_inj upperCaseRow.isJson_fields hcall ((String.append_right_inj _).mp h)
  simp only [fieldList, List.forall_mem_cons] at hall
  obtain ⟨-, -, -, -, -, -, hbinding, -⟩ := hall
  have hspelling : (sampleUuid 3).text = upperCaseId := Option.some.inj (AuditRow.textOrNull_inj hbinding)
  exact absurd hspelling (by decide +kernel)

/-- A login challenge with an upper-case id passes the request schema and is appended, and the chain
no longer verifies. -/
theorem verifyChain_upperCaseCall : Uuid.zodUuid upperCaseId = true ∧
    upperCaseCall.event.Serialisable ∧
    (challengeDeps.appendAll [upperCaseCall]).map challengeDeps.verifyChain =
      some ⟨false, some 1, 1⟩ := by
  refine ⟨by decide, ⟨rfl, by simp [upperCaseCall], by simp [upperCaseCall]; rfl⟩, ?_⟩
  have hprev : ¬ upperCaseRow.prevHash ≠ GENESIS_HASH := not_not.mpr rfl
  have hhash : challengeDeps.computeHash GENESIS_HASH upperCaseRow.fields ≠ upperCaseRow.hash :=
    challengeDeps_sha256_ne upperCaseRow_text
  rw [appendAll_upperCaseCall, Option.map_some]
  unfold verifyChain verifyFrom
  rw [if_neg hprev, if_pos hhash]
  rfl

end AuditDeps
end SdidBridge
