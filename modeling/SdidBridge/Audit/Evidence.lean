import Mathlib.Data.List.Induction
import Mathlib.Data.Set.Function
import SdidBridge.Audit.Service

/-!
# What an intact chain says of its rows

Two tables that are both intact and end in the same hash hold the same rows. The text that a row is
hashed as names every field of the row (`AuditFields.text_inj`); the hash of the row before, which
stands in front of it without a separator, ends where the text's opening brace stands, because
neither a digest nor the constant `genesis` has a brace in it. The argument goes from the last row
back to the first, and `genesis` is no digest, so that the two tables begin together.
-/

namespace SdidBridge

/-- Whether a text is a SHA-256 digest in hexadecimal digits. -/
def isHexDigest (s : String) : Prop :=
  s.toList.length = 64 ∧ ∀ c ∈ s.toList, (hexValue c).isSome

/-- The fields that are hashed, under their keys and in the order in which they are listed. -/
def fieldList : List (String × (AuditFields → JsValue)) := [
  ("id", fun f => .str f.id),
  ("ts", fun f => .str (String.ofList (toISOString f.ts))),
  ("actor", fun f => f.actor),
  ("action", fun f => .str f.action),
  ("subjectRef", fun f => textOrNull f.subjectRef),
  ("rpId", fun f => textOrNull f.rpId),
  ("deviceBindingId", fun f => textOrNull f.deviceBindingId),
  ("assurance", fun f => textOrNull f.assurance),
  ("matchResult", fun f => f.matchResult.getD .null),
  ("sdidTxnRef", fun f => textOrNull f.sdidTxnRef),
  ("result", fun f => .str f.result),
  ("context", fun f => f.context.getD .null)]

namespace AuditFields

theorem toJs_eq (f : AuditFields) : f.toJs = .obj (fieldList.map fun m => (m.1, m.2 f)) := rfl

/-- The fields are all JSON when the values among them are. -/
def IsJson (f : AuditFields) : Prop :=
  f.actor.isJson = true ∧ (f.matchResult.getD .null).isJson = true ∧
    (f.context.getD .null).isJson = true

theorem isJson_textOrNull (s : Option String) : (textOrNull s).isJson = true := by
  cases s <;> rfl

theorem IsJson.field {f : AuditFields} (hf : f.IsJson) :
    ∀ m ∈ fieldList, (m.2 f).isJson = true := by
  obtain ⟨hactor, hmatch, hcontext⟩ := hf
  simp only [fieldList, List.forall_mem_cons, List.not_mem_nil, false_imp_iff, implies_true,
    and_true]
  exact ⟨rfl, rfl, hactor, rfl, isJson_textOrNull _, isJson_textOrNull _, isJson_textOrNull _,
    isJson_textOrNull _, hmatch, isJson_textOrNull _, rfl, hcontext⟩

/-- The canonical form of the hashed object has the canonical forms of its fields. -/
theorem canonical_toJs {f : AuditFields} (hf : f.IsJson) :
    canonical f.toJs = .obj (sortKeys (fieldList.map fun m => (m.1, canonical (m.2 f)))) := by
  have hmembers : ∀ l : List (String × (AuditFields → JsValue)), (∀ m ∈ l, (m.2 f).isJson = true) →
      canonicalMembers (l.map fun m => (m.1, m.2 f)) = l.map fun m => (m.1, canonical (m.2 f)) := by
    intro l hl
    induction l with
    | nil => rfl
    | cons m l ih =>
      have hdef : (m.2 f).isUndefined = false := by
        have := hl m List.mem_cons_self
        cases hv : m.2 f <;> simp_all [JsValue.isUndefined, JsValue.isJson]
      simp only [List.map_cons, canonicalMembers, hdef, Bool.false_eq_true, if_false]
      rw [ih fun m hm => hl m (List.mem_cons_of_mem _ hm)]
  rw [toJs_eq, canonical, hmembers fieldList hf.field]

/-- The hashed text names every field, up to the order of keys. -/
theorem text_inj {f g : AuditFields} (hf : f.IsJson) (hg : g.IsJson) (h : f.text = g.text) :
    ∀ m ∈ fieldList, canonical (m.2 f) = canonical (m.2 g) := by
  have hjson : ∀ {f : AuditFields}, f.IsJson → f.toJs.isJson = true := by
    intro f hf
    rw [toJs_eq]
    simp only [JsValue.isJson, membersJson_iff, List.mem_map]
    rintro _ ⟨m, hm, rfl⟩
    exact hf.field m hm
  have heq := stableStringify_inj (hjson hf) (hjson hg) (String.ofList_injective h)
  rw [canonical_toJs hf, canonical_toJs hg, JsValue.obj.injEq] at heq
  -- The keys are the same in both, so that sorting by them puts the same field in each place.
  have hsort : ∀ f : AuditFields, sortKeys (fieldList.map fun m => (m.1, canonical (m.2 f))) =
      (sortKeys fieldList).map fun m => (m.1, canonical (m.2 f)) := fun f =>
    sortKeys_map (fun sel : AuditFields → JsValue => canonical (sel f)) fieldList
  rw [hsort, hsort, List.map_inj_left] at heq
  intro m hm
  have := heq m (mem_sortKeys.mpr hm)
  rw [Prod.mk.injEq] at this
  exact this.2

/-- The hashed text starts with a brace. -/
theorem text_head (f : AuditFields) : ∃ cs, f.text.toList = '\x7b' :: cs := by
  rw [text, String.toList_ofList, toJs, stableStringify]
  exact ⟨_, rfl⟩

end AuditFields

namespace AuditRow

/-- Two rows say the same of an event: they agree on every field that is hashed, JSON values up to
the order of keys, and a field that is absent counts as `null`. -/
structure Agree (r r' : AuditRow) : Prop where
  /-- The ids agree. -/
  id : r.id = r'.id
  /-- The times agree. -/
  ts : r.ts = r'.ts
  /-- The actors agree. -/
  actor : canonical r.actor.value = canonical r'.actor.value
  /-- The actions agree. -/
  action : r.action = r'.action
  /-- The subjects agree. -/
  subjectRef : r.subjectRef = r'.subjectRef
  /-- The relying parties agree. -/
  rpId : r.rpId = r'.rpId
  /-- The device bindings agree. -/
  deviceBindingId : r.deviceBindingId = r'.deviceBindingId
  /-- The assurance levels agree. -/
  assurance : r.assurance = r'.assurance
  /-- The match results agree. -/
  matchResult : canonical ((r.matchResult.map (·.value)).getD .null) =
    canonical ((r'.matchResult.map (·.value)).getD .null)
  /-- The references of SDID agree. -/
  sdidTxnRef : r.sdidTxnRef = r'.sdidTxnRef
  /-- The outcomes agree. -/
  result : r.result = r'.result
  /-- The contexts agree. -/
  context : canonical ((r.context.map (·.value)).getD .null) =
    canonical ((r'.context.map (·.value)).getD .null)

/-- The columns of a row hold JSON. -/
theorem isJson_fields (r : AuditRow) : r.fields.IsJson := by
  have hopt : ∀ x : Option Jsonb, ((x.map Jsonb.value).getD .null).isJson = true := by
    intro x
    cases x with
    | none => rfl
    | some j => exact j.json
  exact ⟨r.actor.json, hopt _, hopt _⟩

theorem textOrNull_inj {s t : Option String} (h : canonical (textOrNull s) = canonical (textOrNull t)) :
    s = t := by
  cases s <;> cases t <;> simp_all [textOrNull, canonical]

theorem uuidText_inj {u v : Option Uuid} (h : u.map (·.text) = v.map (·.text)) : u = v :=
  Option.map_injective Uuid.text_injective h

/-- Rows with the same hashed text agree. -/
theorem agree_of_text {r r' : AuditRow} (h : r.fields.text = r'.fields.text) : r.Agree r' := by
  have hall := AuditFields.text_inj r.isJson_fields r'.isJson_fields h
  simp only [fieldList, List.forall_mem_cons, List.not_mem_nil, false_imp_iff, implies_true,
    and_true] at hall
  obtain ⟨hid, hts, hactor, haction, hsubject, hrp, hbinding, hassurance, hmatch, htxn, hresult,
    hcontext⟩ := hall
  simp only [canonical, JsValue.str.injEq] at hid hts haction hresult
  exact {
    id := Uuid.text_injective hid
    ts := toISOString_injective (String.ofList_injective hts)
    actor := hactor
    action := haction
    subjectRef := textOrNull_inj hsubject
    rpId := uuidText_inj (textOrNull_inj hrp)
    deviceBindingId := uuidText_inj (textOrNull_inj hbinding)
    assurance := textOrNull_inj hassurance
    matchResult := hmatch
    sdidTxnRef := textOrNull_inj htxn
    result := hresult
    context := hcontext }

end AuditRow

namespace AuditDeps

/-- The texts that `verifyChain` hashes when it walks a table that is intact. -/
def hashInputs (rows : List AuditRow) : Set String :=
  {s | ∃ r ∈ rows, s = r.prevHash ++ r.fields.text}

/-- What stands in front of a hashed text ends at its brace. -/
theorem prevHash_append_inj {p p' : String} {f f' : AuditFields} (hp : '\x7b' ∉ p.toList)
    (hp' : '\x7b' ∉ p'.toList) (h : p ++ f.text = p' ++ f'.text) : p = p' ∧ f.text = f'.text := by
  obtain ⟨cs, hcs⟩ := f.text_head
  obtain ⟨cs', hcs'⟩ := f'.text_head
  have hlist := congrArg String.toList h
  rw [String.toList_append, String.toList_append, hcs, hcs'] at hlist
  have hne : ∀ {q : String}, '\x7b' ∉ q.toList → ∀ c ∈ q.toList, (c != '\x7b') = true := by
    intro q hq c hc
    simp only [bne_iff_ne]
    rintro rfl
    exact hq hc
  have htake := congrArg (List.takeWhile (· != '\x7b')) hlist
  rw [List.takeWhile_append_of_pos (hne hp), List.takeWhile_append_of_pos (hne hp')] at htake
  simp only [bne_self_eq_false, Bool.false_eq_true, not_false_eq_true, List.takeWhile_cons_of_neg,
    List.append_nil] at htake
  obtain rfl : p = p' := String.toList_injective htake
  exact ⟨rfl, (String.append_right_inj p).mp h⟩

theorem brace_notMem_of_isHexDigest {s : String} (hs : isHexDigest s) : '\x7b' ∉ s.toList := by
  intro h
  have := hs.2 _ h
  revert this
  decide

theorem not_isHexDigest_genesis : ¬ isHexDigest GENESIS_HASH := by
  rintro ⟨h, -⟩
  revert h
  decide

variable (D : AuditDeps)

/-- The last hash of a chained table is a digest, unless the table is empty. -/
theorem lastHash_of_chained {rows : List AuditRow} (hc : D.Chained GENESIS_HASH rows)
    (hhex : ∀ s ∈ hashInputs rows, isHexDigest (D.sha256 s)) :
    (rows = [] ∧ lastHash rows = GENESIS_HASH) ∨ (rows ≠ [] ∧ isHexDigest (lastHash rows)) := by
  rcases List.eq_nil_or_concat' rows with rfl | ⟨rs, r, rfl⟩
  · exact .inl ⟨rfl, rfl⟩
  · refine .inr ⟨by simp, ?_⟩
    have hlink := (D.chained_append.mp hc).2.2
    have : lastHash (rs ++ [r]) = D.sha256 (r.prevHash ++ r.fields.text) := by
      simp only [lastHash, List.getLast?_append, List.getLast?_singleton, Option.some_or,
        Option.map_some, Option.getD_some]
      exact hlink.symm
    rw [this]
    exact hhex _ ⟨r, by simp, rfl⟩

/-- Two intact tables that end in the same hash have the same number of rows and agree row by row.
The digest is assumed to be free of collisions on the texts that the two tables hash, and to be
written in 64 hexadecimal digits. -/
theorem intact_tables_agree {a b : List AuditRow}
    (hinj : Set.InjOn D.sha256 (hashInputs a ∪ hashInputs b))
    (hhex : ∀ s ∈ hashInputs a ∪ hashInputs b, isHexDigest (D.sha256 s))
    (ha : (D.verifyChain a).intact = true) (hb : (D.verifyChain b).intact = true)
    (hlast : a.getLast?.map (·.hash) = b.getLast?.map (·.hash)) :
    List.Forall₂ AuditRow.Agree a b := by
  rw [verifyChain, verifyFrom_intact] at ha hb
  induction a using List.reverseRecOn generalizing b with
  | nil =>
    cases b with
    | nil => exact .nil
    | cons r rs => simp [List.getLast?_cons] at hlast
  | append_singleton rs r ih =>
    rcases List.eq_nil_or_concat' b with rfl | ⟨rs', r', rfl⟩
    · simp at hlast
    · obtain ⟨hrs, hprev, hhash⟩ := D.chained_append.mp ha
      obtain ⟨hrs', hprev', hhash'⟩ := D.chained_append.mp hb
      simp only [List.getLast?_append, List.getLast?_singleton, Option.some_or, Option.map_some,
        Option.some.injEq] at hlast
      -- The last rows have the same hash, hence the same hashed text.
      have hmem : r.prevHash ++ r.fields.text ∈ hashInputs (rs ++ [r]) ∪ hashInputs (rs' ++ [r']) :=
        .inl ⟨r, by simp, rfl⟩
      have hmem' : r'.prevHash ++ r'.fields.text ∈
          hashInputs (rs ++ [r]) ∪ hashInputs (rs' ++ [r']) := .inr ⟨r', by simp, rfl⟩
      have hinput := hinj hmem hmem' (by
        change D.computeHash r.prevHash r.fields = D.computeHash r'.prevHash r'.fields
        rw [hhash, hhash', hlast])
      have hsub : ∀ s ∈ hashInputs rs ∪ hashInputs rs',
          s ∈ hashInputs (rs ++ [r]) ∪ hashInputs (rs' ++ [r']) := by
        rintro s (⟨x, hx, rfl⟩ | ⟨x, hx, rfl⟩)
        · exact .inl ⟨x, by simp [hx], rfl⟩
        · exact .inr ⟨x, by simp [hx], rfl⟩
      have hcase := D.lastHash_of_chained hrs fun s hs => hhex s (hsub s (.inl hs))
      have hcase' := D.lastHash_of_chained hrs' fun s hs => hhex s (hsub s (.inr hs))
      have hbrace : ∀ {l : List AuditRow}, (l = [] ∧ lastHash l = GENESIS_HASH) ∨
          (l ≠ [] ∧ isHexDigest (lastHash l)) → '\x7b' ∉ (lastHash l).toList := by
        rintro l (⟨-, h⟩ | ⟨-, h⟩)
        · rw [h]; decide
        · exact brace_notMem_of_isHexDigest h
      rw [show r.prevHash = lastHash rs from hprev, show r'.prevHash = lastHash rs' from hprev']
        at hinput
      obtain ⟨hlinks, htext⟩ := prevHash_append_inj (hbrace hcase) (hbrace hcase') hinput
      -- The tables without their last rows end in the same hash, or are both empty.
      have hlast' : rs.getLast?.map (·.hash) = rs'.getLast?.map (·.hash) := by
        rcases hcase with ⟨rfl, hg⟩ | ⟨hne, hdig⟩ <;> rcases hcase' with ⟨rfl, hg'⟩ | ⟨hne', hdig'⟩
        · rfl
        · rw [← hlinks, hg] at hdig'
          exact absurd hdig' not_isHexDigest_genesis
        · rw [hlinks, hg'] at hdig
          exact absurd hdig not_isHexDigest_genesis
        · obtain ⟨x, hx⟩ := Option.ne_none_iff_exists'.mp (mt List.getLast?_eq_none_iff.mp hne)
          obtain ⟨x', hx'⟩ := Option.ne_none_iff_exists'.mp (mt List.getLast?_eq_none_iff.mp hne')
          simp only [lastHash, hx, hx', Option.map_some, Option.getD_some] at hlinks ⊢
          rw [hlinks]
      refine List.rel_append ?_ (.cons (AuditRow.agree_of_text htext) .nil)
      exact ih (hinj.mono fun s hs => hsub s hs) (fun s hs => hhex s (hsub s hs)) hrs hrs' hlast'

/-- A uuid of version 7 with the last digit `d`. -/
def sampleUuid (d : Fin 16) : Uuid :=
  ⟨[0, 1, 9, 11, 7, 6, 13, 10, 10, 8, 0, 0, 7, 0, 0, 0, 8, 0, 0, 0, 0, 0, 0, 0, 0, 0, 0, 0, 0, 0, 0,
    d], rfl⟩

/-- The text that the row of a registration is hashed as. -/
def sampleText : String :=
  "genesis" ++
    "\x7b\"action\":\"rp.registered\"," ++
    "\"actor\":\x7b\"type\":\"admin\"\x7d,\"assurance\":null," ++
    "\"context\":\x7b\"limit\":5,\"name\":\"Demo\"\x7d," ++
    "\"deviceBindingId\":null," ++
    "\"id\":\"019b76da-a800-7000-8000-000000000001\",\"matchResult\":null," ++
    "\"result\":\"success\"," ++
    "\"rpId\":\"019b76da-a800-7000-8000-000000000002\",\"sdidTxnRef\":null," ++
    "\"subjectRef\":null,\"ts\":\"2026-01-01T00:00:00.000Z\"\x7d"

/-- The digest of that text, and a constant for any other. -/
def sampleDeps : AuditDeps where
  sha256 s := if s = sampleText then
      "dfa9986b7372759f318db2ae94c875f5ba8f7b5ab50000b13c7795f829d29e88"
    else "0000000000000000000000000000000000000000000000000000000000000000"
  jsonb v := ⟨toJson v, isJson_toJson v⟩

/-- The row of a registration with the given context. -/
def sampleRow (context : Jsonb) : AuditRow where
  seq := 1
  id := sampleUuid 1
  ts := 1767225600000
  actor := ⟨.obj [("type", .str "admin")], rfl⟩
  action := "rp.registered"
  subjectRef := none
  rpId := some (sampleUuid 2)
  deviceBindingId := none
  assurance := none
  matchResult := none
  sdidTxnRef := none
  result := "success"
  context := some context
  prevHash := GENESIS_HASH
  hash := "dfa9986b7372759f318db2ae94c875f5ba8f7b5ab50000b13c7795f829d29e88"

/-- The context of a registration, with its keys in the order in which Postgres prints them. -/
def sampleContext : Jsonb := ⟨.obj [("name", .str "Demo"), ("limit", .nat 5)], rfl⟩

/-- The same context with its keys in another order. -/
def reorderedContext : Jsonb := ⟨.obj [("limit", .nat 5), ("name", .str "Demo")], rfl⟩

/-- The order of the keys does not matter to the text. -/
theorem text_reordered :
    (sampleRow reorderedContext).fields.text = (sampleRow sampleContext).fields.text := by
  have hcontext : stableStringify reorderedContext.value = stableStringify sampleContext.value := by decide
  unfold AuditFields.text AuditFields.toJs AuditRow.fields sampleRow
  simp only [stableStringify, stableEntries, Option.map_some, Option.getD_some, hcontext]
  rfl

/-- The row is hashed as that text, and so is the one with the keys in another order. -/
theorem sampleRow_text : GENESIS_HASH ++ (sampleRow sampleContext).fields.text = sampleText ∧
    GENESIS_HASH ++ (sampleRow reorderedContext).fields.text = sampleText := by
  have htext : GENESIS_HASH ++ (sampleRow sampleContext).fields.text = sampleText := by
    rw [← String.toList_inj]
    unfold AuditFields.text GENESIS_HASH sampleText
    simp only [String.toList_append, String.toList_ofList]
    decide +kernel
  exact ⟨htext, text_reordered ▸ htext⟩

theorem sampleDeps_sha256 : sampleDeps.sha256 sampleText =
    "dfa9986b7372759f318db2ae94c875f5ba8f7b5ab50000b13c7795f829d29e88" := by
  simp only [sampleDeps, if_true]

/-- A row, and the same row with the keys of its context in another order. -/
theorem intact_tables_agree_reordered :
    List.Forall₂ AuditRow.Agree [sampleRow sampleContext] [sampleRow reorderedContext] := by
  have hinput : ∀ s ∈ hashInputs [sampleRow sampleContext] ∪ hashInputs [sampleRow reorderedContext],
      s = sampleText := by
    rintro s (⟨r, hr, rfl⟩ | ⟨r, hr, rfl⟩) <;> rw [List.mem_singleton.mp hr]
    · exact sampleRow_text.1
    · exact sampleRow_text.2
  have hchain : ∀ context, GENESIS_HASH ++ (sampleRow context).fields.text = sampleText →
      (sampleDeps.verifyChain [sampleRow context]).intact = true := by
    intro context htext
    rw [verifyChain, verifyFrom_intact, Chained, Chained, computeHash, htext, sampleDeps_sha256]
    exact ⟨rfl, rfl, trivial⟩
  refine intact_tables_agree sampleDeps ?_ ?_ (hchain _ sampleRow_text.1)
    (hchain _ sampleRow_text.2) rfl
  · intro s hs t ht _
    rw [hinput s hs, hinput t ht]
  · intro s hs
    rw [hinput s hs, sampleDeps_sha256]
    exact ⟨by decide +kernel, List.all_eq_true.mp (by decide +kernel)⟩

end AuditDeps

end SdidBridge
