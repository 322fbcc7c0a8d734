import SdidBridge.Attestation.CborHeads
import SdidBridge.Codec.Layout

/-!
# What the CBOR decoder accepts

The reader accepts the shortest forms of the supported values within its limits and nothing else, and what
it returns is the value with each text as the text decoder reads it: `readsValues` for an item, by
induction on the levels that are left, and `decodeWith_eq_ok` for an input.
-/

namespace SdidBridge.Attestation

open Codec

/-! ## Items that lie ahead -/

/-- A key as a value. -/
def CborKey.value : CborKey → CborValue
  | .text s => .text s
  | .number n => .number n

@[simp] theorem encodeCbor_keyValue (k : CborKey) : encodeCbor k.value = encodeKey k := by
  cases k <;> simp [CborKey.value, encodeCbor, encodeKey]

@[simp] theorem itemCount_keyValue (k : CborKey) : itemCount k.value = 1 := by
  cases k <;> simp [CborKey.value, itemCount]

@[simp] theorem nesting_keyValue (k : CborKey) : nesting k.value = 0 := by
  cases k <;> simp [CborKey.value, nesting]

@[simp] theorem mapText_keyValue (f : String → String) (k : CborKey) :
    k.value.mapText f = (k.mapText f).value := by
  cases k <;> simp [CborKey.value, CborValue.mapText, CborKey.mapText]

theorem supported_keyValue (k : CborKey) : Supported k.value ↔ k.Supported := by
  cases k with
  | text s => exact ⟨fun _ => trivial, fun _ => .text s⟩
  | number n =>
    constructor
    · intro h
      cases h with
      | number h => exact h
    · exact fun h => .number h

@[simp] theorem asKey_keyValue (k : CborKey) : asKey k.value = some k := by
  cases k <;> rfl

theorem eq_keyValue_of_asKey {w : CborValue} {k : CborKey} (h : asKey w = some k) : w = k.value := by
  unfold asKey at h
  split at h
  · cases h
    rfl
  · cases h
    rfl
  · cases h

/-- A value whose texts are rewritten to a key is a key. -/
theorem exists_key_of_mapText {f : String → String} {v : CborValue} {k : CborKey}
    (h : v.mapText f = k.value) : ∃ k₀ : CborKey, v = k₀.value ∧ k = k₀.mapText f := by
  cases v <;> cases k <;> simp only [CborValue.mapText, CborKey.value, reduceCtorEq] at h
  · rename_i n m
    cases h
    exact ⟨.number n, rfl, rfl⟩
  · rename_i s t
    cases h
    exact ⟨.text s, rfl, rfl⟩

/-- The keys and values of a map, one after another. -/
def flatEntries (entries : List (CborKey × CborValue)) : List CborValue :=
  entries.flatMap fun e => [e.1.value, e.2]

@[simp] theorem flatEntries_nil : flatEntries [] = [] := rfl

@[simp] theorem flatEntries_cons (e : CborKey × CborValue) (entries : List (CborKey × CborValue)) :
    flatEntries (e :: entries) = e.1.value :: e.2 :: flatEntries entries := rfl

theorem encode_flatEntries (entries : List (CborKey × CborValue)) :
    (flatEntries entries).flatMap encodeCbor = entries.flatMap fun e => encodeKey e.1 ++ encodeCbor e.2 := by
  induction entries with
  | nil => rfl
  | cons e entries ih => simp [ih]

theorem itemCount_flatEntries (entries : List (CborKey × CborValue)) :
    ((flatEntries entries).map itemCount).sum = (entries.map fun e => 1 + itemCount e.2).sum := by
  induction entries with
  | nil => rfl
  | cons e entries ih => simp [ih, Nat.add_assoc]

theorem encodeCbor_pos (v : CborValue) : 0 < (encodeCbor v).length := by
  have hhead : ∀ major n, 0 < (shortestHead major n).length := by
    intro major n
    unfold shortestHead
    split_ifs <;> simp
  have hinteger : ∀ n, 0 < (encodeInteger n).length := by
    intro n
    unfold encodeInteger
    split_ifs <;> exact hhead _ _
  cases v <;> simp only [encodeCbor, encodeText, List.length_append, List.length_cons]
  case number n => exact hinteger n
  case bigint n => exact hinteger n
  all_goals first | omega | exact Nat.add_pos_left (hhead _ _) _

/-- As many values take at least as many bytes. -/
theorem length_le_encode (vs : List CborValue) : vs.length ≤ (vs.flatMap encodeCbor).length := by
  induction vs with
  | nil => simp
  | cons v vs ih =>
    have hpos := encodeCbor_pos v
    rw [List.flatMap_cons, List.length_append, List.length_cons]
    omega

/-- How values are laid out. -/
def cborLayout : Layout CborValue where
  encode := encodeCbor
  size := itemCount
  height := nesting

@[simp] theorem cborLayout_encode : cborLayout.encode = encodeCbor := rfl
@[simp] theorem cborLayout_size : cborLayout.size = itemCount := rfl
@[simp] theorem cborLayout_height : cborLayout.height = nesting := rfl

/-- Values that lie ahead of the cursor, within the limits and `levels` deep, in the shortest form, and of
which the decoder has a supported reading. -/
abbrev Lies (utf8 : TextDecoder) (limits : CborLimits) (levels : ℕ) (c : Cursor) (vs : List CborValue) :
    Prop :=
  cborLayout.Ahead (fun v => Supported (v.mapText utf8.reading)) limits.maxItems levels c vs

/-- The cursor after them. -/
abbrev after (c : Cursor) (vs : List CborValue) : Cursor := cborLayout.after c vs

/-- `item` reads the values that lie ahead and nothing else. -/
abbrev ReadsValues (utf8 : TextDecoder) (limits : CborLimits) (levels : ℕ) (item : CborReader CborValue) :
    Prop :=
  cborLayout.Reads (fun v => Supported (v.mapText utf8.reading)) limits.maxItems MAX_SAFE_INTEGER levels
    (CborValue.mapText utf8.reading) item

theorem after_eq (c : Cursor) (vs : List CborValue) :
    after c vs = (c.skip (vs.flatMap encodeCbor).length).counted (vs.map itemCount).sum := rfl

/-! ## The loop of a map -/

section Loops

variable {utf8 : TextDecoder} {limits : CborLimits} {levels : ℕ} {item : CborReader CborValue}

theorem after_flatEntries_cons (c : Cursor) (k : CborKey) (v : CborValue) (es : List (CborKey × CborValue)) :
    after c (flatEntries ((k, v) :: es)) = after (after (after c [k.value]) [v]) (flatEntries es) := by
  rw [flatEntries_cons, after, Layout.after_cons c k.value (v :: flatEntries es),
    Layout.after_cons _ v (flatEntries es)]

/-- An entry of a map as the decoder reads it. -/
def readEntry (utf8 : TextDecoder) (e : CborKey × CborValue) : CborKey × CborValue :=
  (e.1.mapText utf8.reading, e.2.mapText utf8.reading)

theorem readPairs_sound (hitem : ReadsValues utf8 limits levels item) {n : ℕ} {c c' : Cursor}
    {out ws : List (CborKey × CborValue)} (hc : c.Inside) (hcount : (c.count : ℤ) ≤ limits.maxItems)
    (hout : (out.map Prod.fst).Nodup) (h : readPairs item n out c = .ok (ws, c')) :
    ∃ es, es.length = n ∧ Lies utf8 limits levels c (flatEntries es) ∧
      ws = out ++ es.map (readEntry utf8) ∧ (ws.map Prod.fst).Nodup ∧ c' = after c (flatEntries es) := by
  induction n generalizing c out with
  | zero =>
    obtain ⟨rfl, rfl⟩ := Reader.pure_eq_ok.mp h
    exact ⟨[], rfl, Layout.ahead_nil hcount, by simp, hout, rfl⟩
  | succ n ih =>
    unfold readPairs at h
    obtain ⟨w, c₁, hw, h⟩ := Reader.bind_eq_ok.mp h
    obtain ⟨u, hu, rfl, rfl⟩ := hitem.sound hc hw
    cases hkey : asKey (u.mapText utf8.reading) with
    | none =>
      rw [hkey] at h
      exact (Reader.raise_eq_ok.mp h).elim
    | some k =>
      rw [hkey] at h
      obtain ⟨k₀, rfl, rfl⟩ := exists_key_of_mapText (eq_keyValue_of_asKey hkey)
      obtain ⟨hfresh, h⟩ := Reader.require_bind_eq_ok.mp h
      obtain ⟨w, c₃, hw', h⟩ := Reader.bind_eq_ok.mp h
      obtain ⟨v, hv, rfl, rfl⟩ := hitem.sound (hu.after_inside hc) hw'
      have hout' : ((out ++ [(k₀.mapText utf8.reading, v.mapText utf8.reading)]).map Prod.fst).Nodup := by
        rw [List.map_append, List.nodup_append]
        refine ⟨hout, by simp, ?_⟩
        intro k hk k' hk' heq
        rw [List.map_singleton, List.mem_singleton] at hk'
        rw [heq, hk'] at hk
        exact hfresh hk
      obtain ⟨es, rfl, hes, rfl, hnodup, rfl⟩ :=
        ih (hv.after_inside (hu.after_inside hc)) hv.after_count hout' h
      refine ⟨(k₀, v) :: es, rfl, ?_, by simp [readEntry], hnodup, (after_flatEntries_cons c k₀ v es).symm⟩
      rw [flatEntries_cons]
      exact Layout.ahead_cons.mpr ⟨hu, Layout.ahead_cons.mpr ⟨hv, hes⟩⟩

theorem readPairs_complete (hitem : ReadsValues utf8 limits levels item)
    {es out : List (CborKey × CborValue)} {c : Cursor} (hc : c.Inside)
    (hbuf : c.buf.length ≤ MAX_SAFE_INTEGER)
    (hnodup : ((out ++ es.map (readEntry utf8)).map Prod.fst).Nodup)
    (h : Lies utf8 limits levels c (flatEntries es)) :
    readPairs item es.length out c = .ok (out ++ es.map (readEntry utf8), after c (flatEntries es)) := by
  induction es generalizing c out with
  | nil =>
    rw [List.map_nil, List.append_nil]
    rfl
  | cons e es ih =>
    obtain ⟨k, v⟩ := e
    rw [flatEntries_cons] at h
    dsimp only at h
    obtain ⟨hk, h⟩ := Layout.ahead_cons.mp h
    obtain ⟨hv, hes⟩ := Layout.ahead_cons.mp h
    have hsplit : out ++ ((k, v) :: es).map (readEntry utf8) =
        (out ++ [readEntry utf8 (k, v)]) ++ es.map (readEntry utf8) := by simp
    have hfresh : k.mapText utf8.reading ∉ out.map Prod.fst := by
      rw [List.map_append, List.map_cons, List.map_cons] at hnodup
      have hdisjoint := (List.nodup_append.mp hnodup).2.2
      intro hmem
      exact hdisjoint _ hmem _ List.mem_cons_self rfl
    rw [hsplit] at hnodup ⊢
    have htail := ih (hv.after_inside (hk.after_inside hc)) hbuf hnodup hes
    have hread := hitem.complete hc hbuf hk
    rw [mapText_keyValue] at hread
    rw [List.length_cons, readPairs, Reader.bind_of_ok hread, asKey_keyValue]
    dsimp only
    rw [Reader.bind_of_ok (Reader.require_eq_ok.mpr ⟨hfresh, rfl⟩ : _ = Except.ok ((), after c [k.value])),
      Reader.bind_of_ok (hitem.complete (hk.after_inside hc) hbuf hv),
      after_flatEntries_cons]
    exact htail

end Loops

/-! ## One value -/

section Value

variable {utf8 : TextDecoder} {limits : CborLimits} {levels : ℕ} {item : CborReader CborValue}

/-- A value `v` that lies ahead of `c` but for its head byte, which is that of `major` and `ai`. -/
structure Headed (utf8 : TextDecoder) (limits : CborLimits) (levels : ℕ) (c c' : Cursor) (major ai : ℕ)
    (v : CborValue) : Prop where
  supported : Supported (v.mapText utf8.reading)
  tail : ∃ tail, encodeCbor v = UInt8.ofNat (major * 32 + ai) :: tail ∧ c.rest = tail ++ c'.rest ∧
    c' = (c.skip tail.length).counted (itemCount v - 1)
  items : ((c.count + (itemCount v - 1) : ℕ) : ℤ) ≤ limits.maxItems
  depth : nesting v < levels + 1

/-- The value that stands for an integer. -/
def integerValue (n : ℤ) : CborValue := if -2 ^ 53 ≤ n ∧ n < 2 ^ 53 then .number n else .bigint n

@[simp] theorem encodeCbor_integerValue (n : ℤ) : encodeCbor (integerValue n) = encodeInteger n := by
  unfold integerValue
  split_ifs <;> rw [encodeCbor]

@[simp] theorem itemCount_integerValue (n : ℤ) : itemCount (integerValue n) = 1 := by
  unfold integerValue
  split_ifs <;> simp [itemCount]

@[simp] theorem nesting_integerValue (n : ℤ) : nesting (integerValue n) = 0 := by
  unfold integerValue
  split_ifs <;> simp [nesting]

@[simp] theorem mapText_integerValue (f : String → String) (n : ℤ) :
    (integerValue n).mapText f = integerValue n := by
  unfold integerValue
  split_ifs <;> simp [CborValue.mapText]

theorem supported_integerValue {n : ℤ} (hlow : -2 ^ 64 ≤ n) (hhigh : n < 2 ^ 64) :
    Supported (integerValue n) := by
  unfold integerValue
  split_ifs with h
  · exact .number h
  · exact .bigint ⟨h, hlow, hhigh⟩

theorem unsignedValue_eq {arg : Argument} (h : arg.value = safeValue arg.big) :
    unsignedValue arg = integerValue arg.big := by
  unfold unsignedValue integerValue
  rw [h]
  unfold safeValue MAX_SAFE_INTEGER
  by_cases hsafe : arg.big ≤ 2 ^ 53 - 1
  · rw [if_pos hsafe, if_pos (by omega)]
  · rw [if_neg hsafe, if_neg (by omega)]

theorem negativeValue_eq {arg : Argument} (h : arg.value = safeValue arg.big) :
    negativeValue arg = integerValue (-1 - arg.big) := by
  unfold negativeValue integerValue
  rw [h]
  unfold safeValue MAX_SAFE_INTEGER
  by_cases hsafe : arg.big ≤ 2 ^ 53 - 1
  · rw [if_pos hsafe, if_pos (by omega)]
  · rw [if_neg hsafe, if_neg (by omega)]

theorem encodeInteger_unsigned (n : ℕ) : encodeInteger n = shortestHead MT_UNSIGNED n := by
  unfold encodeInteger
  rw [if_pos (by omega), Int.toNat_natCast]

theorem encodeInteger_negative (n : ℕ) : encodeInteger (-1 - n) = shortestHead MT_NEGATIVE n := by
  have hback : (-1 - (-1 - (n : ℤ))).toNat = n := by omega
  unfold encodeInteger
  rw [if_neg (by omega), hback]

/-- What is read of an integer: its head alone. -/
theorem headed_integer {c c' : Cursor} {major ai n : ℕ} {z : ℤ} {raw : Bytes} (hraw : Follows ai n raw)
    (henc : encodeInteger z = shortestHead major n) (hlow : -2 ^ 64 ≤ z) (hhigh : z < 2 ^ 64)
    (hcount : (c.count : ℤ) ≤ limits.maxItems) (hrest : c.rest = raw ++ c'.rest)
    (hskip : c' = c.skip raw.length) :
    Headed utf8 limits levels c c' major ai (integerValue z) where
  supported := by
    rw [mapText_integerValue]
    exact supported_integerValue hlow hhigh
  tail := by
    refine ⟨raw, ?_, hrest, ?_⟩
    · rw [encodeCbor_integerValue, henc, hraw.2.2]
    · rw [hskip, itemCount_integerValue]
      rfl
  items := by
    rw [itemCount_integerValue]
    exact hcount
  depth := by
    rw [nesting_integerValue]
    omega

/-- The bytes of a string follow its head. -/
theorem string_tail {n : ℕ} {raw payload : Bytes} {c c₁ c₂ : Cursor} (hc : c₁.Inside)
    (hrest : c.rest = raw ++ c₁.rest) (hskip : c₁ = c.skip raw.length)
    (h : cborBytes n c₁ = .ok (payload, c₂)) :
    payload.length = n ∧ c.rest = (raw ++ payload) ++ c₂.rest ∧ c₂ = c.skip (raw ++ payload).length := by
  obtain ⟨hleft, hpayload, rfl⟩ := (Reader.bytes_eq_ok hc).mp h
  have hlen : payload.length = n := by
    rw [hpayload, List.length_take, Cursor.rest_length]
    omega
  refine ⟨hlen, ?_, ?_⟩
  · rw [Cursor.skip_rest, List.append_assoc, hpayload, List.take_append_drop, hrest]
  · rw [hskip, Cursor.skip_skip, List.length_append, hlen]

/-- The greatest of some numbers is below a bound when each of them is. -/
theorem foldr_max_lt {l : List ℕ} {k : ℕ} : l.foldr max 0 < k + 1 ↔ ∀ x ∈ l, x < k + 1 := by
  induction l with
  | nil => simp
  | cons x l ih =>
    rw [List.foldr_cons, List.forall_mem_cons, ← ih]
    omega

theorem nesting_array_lt {vs : List CborValue} {k : ℕ} :
    nesting (.array vs) < k + 1 ↔ ∀ v ∈ vs, nesting v < k := by
  rw [nesting, foldr_max_lt]
  simp

theorem nesting_map_lt {es : List (CborKey × CborValue)} {k : ℕ} :
    nesting (.map es) < k + 1 ↔ ∀ v ∈ flatEntries es, nesting v < k := by
  rw [nesting, foldr_max_lt]
  unfold flatEntries
  simp only [List.forall_mem_map, List.mem_flatMap, List.mem_cons, List.not_mem_nil, or_false]
  constructor
  · rintro h v ⟨e, he, rfl | rfl⟩
    · have hlt := h e he
      rw [nesting_keyValue]
      omega
    · have hlt := h e he
      omega
  · intro h e he
    have hlt := h e.2 ⟨e, he, .inr rfl⟩
    omega

theorem supported_array {f : String → String} {vs : List CborValue} :
    Supported ((CborValue.array vs).mapText f) ↔ ∀ v ∈ vs, Supported (v.mapText f) := by
  rw [CborValue.mapText]
  constructor
  · intro h
    cases h with
    | array h => exact fun v hv => h _ (List.mem_map_of_mem hv)
  · intro h
    refine .array ?_
    intro w hw
    obtain ⟨v, hv, rfl⟩ := List.mem_map.mp hw
    exact h v hv

theorem supported_map {es : List (CborKey × CborValue)} :
    Supported ((CborValue.map es).mapText utf8.reading) ↔
      (∀ v ∈ flatEntries es, Supported (v.mapText utf8.reading)) ∧
        ((es.map (readEntry utf8)).map Prod.fst).Nodup := by
  rw [CborValue.mapText]
  unfold flatEntries
  constructor
  · intro h
    cases h with
    | map hkeys hdistinct h =>
      refine ⟨?_, hdistinct⟩
      intro v hv
      simp only [List.mem_flatMap, List.mem_cons, List.not_mem_nil, or_false] at hv
      obtain ⟨e, he, rfl | rfl⟩ := hv
      · rw [mapText_keyValue, supported_keyValue]
        exact hkeys _ (List.mem_map_of_mem he)
      · exact h _ (List.mem_map_of_mem he)
  · rintro ⟨h, hdistinct⟩
    refine .map ?_ hdistinct ?_
    · intro e' he'
      obtain ⟨e, he, rfl⟩ := List.mem_map.mp he'
      have hkey := h e.1.value (List.mem_flatMap.mpr ⟨e, he, by simp⟩)
      rwa [mapText_keyValue, supported_keyValue] at hkey
    · intro e' he'
      obtain ⟨e, he, rfl⟩ := List.mem_map.mp he'
      exact h e.2 (List.mem_flatMap.mpr ⟨e, he, by simp⟩)

theorem headed_array {c c₁ : Cursor} {ai : ℕ} {raw : Bytes} {vs : List CborValue} {levels : ℕ}
    (hraw : Follows ai vs.length raw) (hrest : c.rest = raw ++ c₁.rest) (hskip : c₁ = c.skip raw.length)
    (h : Lies utf8 limits levels c₁ vs) :
    Headed utf8 limits levels c (after c₁ vs) MT_ARRAY ai (.array vs) := by
  have hcount : itemCount (.array vs) - 1 = (vs.map itemCount).sum := by
    rw [itemCount, Nat.add_sub_cancel_left]
  obtain ⟨r, hr⟩ : ∃ r, c₁.rest = vs.flatMap encodeCbor ++ r := h.rest
  refine ⟨supported_array.mpr h.valid, ⟨raw ++ vs.flatMap encodeCbor, ?_, ?_, ?_⟩, ?_,
    nesting_array_lt.mpr h.depth⟩
  · rw [encodeCbor, hraw.2.2, List.cons_append]
  · rw [Layout.after_rest hr, hrest, hr, List.append_assoc]
  · rw [hcount, hskip, after_eq, Cursor.skip_skip, List.length_append]
  · rw [hcount]
    have hitems := h.items
    rwa [hskip, Cursor.skip_count] at hitems

theorem headed_map {c c₁ : Cursor} {ai : ℕ} {raw : Bytes} {es : List (CborKey × CborValue)} {levels : ℕ}
    (hraw : Follows ai es.length raw) (hrest : c.rest = raw ++ c₁.rest) (hskip : c₁ = c.skip raw.length)
    (hdistinct : ((es.map (readEntry utf8)).map Prod.fst).Nodup)
    (h : Lies utf8 limits levels c₁ (flatEntries es)) :
    Headed utf8 limits levels c (after c₁ (flatEntries es)) MT_MAP ai (.map es) := by
  have hcount : itemCount (.map es) - 1 = ((flatEntries es).map itemCount).sum := by
    rw [itemCount, Nat.add_sub_cancel_left, itemCount_flatEntries]
  obtain ⟨r, hr⟩ : ∃ r, c₁.rest = (flatEntries es).flatMap encodeCbor ++ r := h.rest
  refine ⟨supported_map.mpr ⟨h.valid, hdistinct⟩,
    ⟨raw ++ (flatEntries es).flatMap encodeCbor, ?_, ?_, ?_⟩, ?_, nesting_map_lt.mpr h.depth⟩
  · rw [encodeCbor, hraw.2.2, List.cons_append, encode_flatEntries]
  · rw [Layout.after_rest hr, hrest, hr, List.append_assoc]
  · rw [hcount, hskip, after_eq, Cursor.skip_skip, List.length_append]
  · rw [hcount]
    have hitems := h.items
    rwa [hskip, Cursor.skip_count] at hitems

/-- A simple value is its head byte alone. -/
theorem headed_simple {c c' : Cursor} {ai : ℕ} {w : CborValue} (hcount : (c.count : ℤ) ≤ limits.maxItems)
    (h : readSimple ai c = .ok (w, c')) :
    Headed utf8 limits levels c c' 7 ai w ∧ w = w.mapText utf8.reading := by
  unfold readSimple at h
  split at h
  case h_5 => exact (Reader.raise_eq_ok.mp h).elim
  all_goals
    obtain ⟨rfl, rfl⟩ := Reader.pure_eq_ok.mp h
    refine ⟨⟨?_, ⟨[], ?_, rfl, ?_⟩, ?_, ?_⟩, ?_⟩
    · rw [CborValue.mapText]
      constructor
    · rw [encodeCbor]
      rfl
    · simp [itemCount]
    · simpa [itemCount] using hcount
    · simp [nesting]
    · rw [CborValue.mapText]

/-- What `readBody` reads of a value is what follows the head byte in its shortest form. -/
theorem readBody_sound (hitem : ReadsValues utf8 limits levels item) {major ai : ℕ} {c c' : Cursor}
    {w : CborValue} (hmajor : major < 8) (hai : ai < 32) (hc : c.Inside)
    (hcount : (c.count : ℤ) ≤ limits.maxItems) (h : readBody utf8 item major ai c = .ok (w, c')) :
    ∃ v, Headed utf8 limits levels c c' major ai v ∧ w = v.mapText utf8.reading := by
  -- one case for each major type
  interval_cases major <;> unfold readBody at h
  · obtain ⟨arg, c₁, harg, h⟩ := Reader.bind_eq_ok.mp h
    obtain ⟨raw, hraw, hvalue, hrest, hskip⟩ := argument_sound hc hai harg
    obtain ⟨rfl, rfl⟩ := Reader.pure_eq_ok.mp h
    have hn := hraw.2.1
    refine ⟨integerValue arg.big, ?_, ?_⟩
    · exact headed_integer hraw (encodeInteger_unsigned arg.big) (by omega) (by omega) hcount hrest hskip
    · rw [mapText_integerValue, unsignedValue_eq hvalue]
  · obtain ⟨arg, c₁, harg, h⟩ := Reader.bind_eq_ok.mp h
    obtain ⟨raw, hraw, hvalue, hrest, hskip⟩ := argument_sound hc hai harg
    obtain ⟨rfl, rfl⟩ := Reader.pure_eq_ok.mp h
    have hn := hraw.2.1
    refine ⟨integerValue (-1 - arg.big), ?_, ?_⟩
    · exact headed_integer hraw (encodeInteger_negative arg.big) (by omega) (by omega) hcount hrest hskip
    · rw [mapText_integerValue, negativeValue_eq hvalue]
  · obtain ⟨n, c₁, hn, h⟩ := Reader.bind_eq_ok.mp h
    obtain ⟨payload, c₂, hpayload, h⟩ := Reader.bind_eq_ok.mp h
    obtain ⟨rfl, rfl⟩ := Reader.pure_eq_ok.mp h
    obtain ⟨raw, hraw, hleft, hrest, hskip⟩ := countArgument_sound hc hai hn
    have hin : c₁.Inside := by
      rw [hskip]
      exact Cursor.skip_inside_of_append hc hrest
    obtain ⟨rfl, htail, hend⟩ := string_tail hin hrest hskip hpayload
    refine ⟨.bytes payload, ⟨?_, ⟨raw ++ payload, ?_, htail, ?_⟩, ?_, ?_⟩, ?_⟩
    · rw [CborValue.mapText]
      exact .bytes payload
    · rw [encodeCbor, MT_BYTES, hraw.2.2, List.cons_append]
    · rw [hend]
      simp [itemCount]
    · simpa [itemCount] using hcount
    · simp [nesting]
    · rw [CborValue.mapText]
  · obtain ⟨n, c₁, hn, h⟩ := Reader.bind_eq_ok.mp h
    obtain ⟨payload, c₂, hpayload, hread⟩ := Reader.bind_eq_ok.mp h
    obtain ⟨raw, hraw, hleft, hrest, hskip⟩ := countArgument_sound hc hai hn
    have hin : c₁.Inside := by
      rw [hskip]
      exact Cursor.skip_inside_of_append hc hrest
    obtain ⟨rfl, htail, hend⟩ := string_tail hin hrest hskip hpayload
    cases hdecode : utf8.decode payload with
    | none =>
      rw [hdecode] at hread
      exact (Reader.raise_eq_ok.mp hread).elim
    | some t =>
      rw [hdecode] at hread
      obtain ⟨rfl, rfl⟩ := Reader.pure_eq_ok.mp hread
      obtain ⟨s, rfl, rfl⟩ := exists_of_decode hdecode
      refine ⟨.text s, ⟨?_, ⟨raw ++ Attestation.utf8 s, ?_, htail, ?_⟩, ?_, ?_⟩, ?_⟩
      · rw [CborValue.mapText]
        exact .text _
      · rw [encodeCbor, encodeText, MT_TEXT, hraw.2.2, List.cons_append]
      · rw [hend]
        simp [itemCount]
      · simpa [itemCount] using hcount
      · simp [nesting]
      · rw [CborValue.mapText]
  · obtain ⟨n, c₁, hn, h⟩ := Reader.bind_eq_ok.mp h
    obtain ⟨ws, c₂, hws, h⟩ := Reader.bind_eq_ok.mp h
    obtain ⟨rfl, rfl⟩ := Reader.pure_eq_ok.mp h
    obtain ⟨raw, hraw, hleft, hrest, hskip⟩ := countArgument_sound hc hai hn
    have hin : c₁.Inside := by
      rw [hskip]
      exact Cursor.skip_inside_of_append hc hrest
    have hcount₁ : (c₁.count : ℤ) ≤ limits.maxItems := by
      rw [hskip]
      exact hcount
    obtain ⟨vs, rfl, hvs, rfl, rfl⟩ := Layout.times_sound hitem hin hcount₁ hws
    exact ⟨.array vs, headed_array hraw hrest hskip hvs, by rw [CborValue.mapText]⟩
  · obtain ⟨n, c₁, hn, h⟩ := Reader.bind_eq_ok.mp h
    obtain ⟨ws, c₂, hws, h⟩ := Reader.bind_eq_ok.mp h
    obtain ⟨rfl, rfl⟩ := Reader.pure_eq_ok.mp h
    obtain ⟨raw, hraw, hleft, hrest, hskip⟩ := countArgument_sound hc hai hn
    have hin : c₁.Inside := by
      rw [hskip]
      exact Cursor.skip_inside_of_append hc hrest
    have hcount₁ : (c₁.count : ℤ) ≤ limits.maxItems := by
      rw [hskip]
      exact hcount
    obtain ⟨es, rfl, hes, rfl, hnodup, rfl⟩ := readPairs_sound hitem hin hcount₁ (by simp) hws
    rw [List.nil_append] at hnodup
    refine ⟨.map es, headed_map hraw hrest hskip hnodup hes, ?_⟩
    rw [CborValue.mapText, List.nil_append]
    rfl
  · exact (Reader.raise_eq_ok.mp h).elim
  · obtain ⟨hheaded, hw⟩ := headed_simple hcount h
    exact ⟨w, hheaded, hw⟩

theorem itemCount_pos (v : CborValue) : 0 < itemCount v := by
  cases v <;> simp [itemCount]

/-- The cursor after the head byte of an item. -/
def afterHead (c : Cursor) : Cursor := (c.counted 1).skip 1

theorem afterHead_rest {c : Cursor} {b : UInt8} {r : Bytes} (h : c.rest = b :: r) :
    (afterHead c).rest = r := by
  unfold afterHead
  rw [Cursor.skip_rest, Cursor.counted_rest, h]
  rfl

theorem afterHead_inside {c : Cursor} {b : UInt8} {r : Bytes} (hc : c.Inside) (h : c.rest = b :: r) :
    (afterHead c).Inside := by
  have hsplit : (c.counted 1).rest = [b] ++ r := h
  exact Cursor.skip_inside_of_append ((Cursor.counted_inside c 1).mpr hc) hsplit

theorem after_eq_of_headed {c : Cursor} {v : CborValue} {b : UInt8} {tail : Bytes}
    (h : encodeCbor v = b :: tail) :
    ((afterHead c).skip tail.length).counted (itemCount v - 1) = after c [v] := by
  have hpos := itemCount_pos v
  have hitems : 1 + (itemCount v - 1) = itemCount v := by omega
  have hbytes : 1 + tail.length = (encodeCbor v).length := by
    rw [h, List.length_cons]
    omega
  unfold afterHead after
  rw [Layout.after_singleton, cborLayout_encode, cborLayout_size, Cursor.counted_skip, Cursor.counted_skip,
    Cursor.skip_skip, Cursor.counted_counted, hitems, hbytes]

/-- One level up: what `readValue` reads lies ahead. -/
theorem readValue_sound (hitem : ReadsValues utf8 limits levels (readValue utf8 limits levels))
    {c c' : Cursor} {w : CborValue} (hc : c.Inside)
    (h : readValue utf8 limits (levels + 1) c = .ok (w, c')) :
    ∃ v, Lies utf8 limits (levels + 1) c [v] ∧ w = v.mapText utf8.reading ∧ c' = after c [v] := by
  unfold readValue at h
  obtain ⟨_, c₁, htally, h⟩ := Reader.bind_eq_ok.mp h
  obtain ⟨hcount, hc₁⟩ := Reader.tally_eq_ok.mp htally
  dsimp only at hc₁
  subst hc₁
  obtain ⟨head, c₂, hhead, h⟩ := Reader.bind_eq_ok.mp h
  obtain ⟨⟨r, hr⟩, rfl⟩ := Reader.byte_eq_ok.mp hhead
  obtain ⟨hparts, hmajor, hai⟩ := head_parts head
  have hin : (afterHead c).Inside := afterHead_inside hc hr
  obtain ⟨v, hv, rfl⟩ := readBody_sound hitem hmajor hai hin hcount h
  obtain ⟨tail, henc, hrest, hskip⟩ := hv.tail
  have hpos := itemCount_pos v
  rw [← hparts] at henc
  have hr' : r = tail ++ c'.rest := by
    rw [← afterHead_rest hr]
    exact hrest
  have hrest' : c.rest = cborLayout.encode v ++ c'.rest := by
    rw [Cursor.counted_rest] at hr
    rw [hr, hr', cborLayout_encode, henc, List.cons_append]
  refine ⟨v, Layout.ahead_singleton hv.supported hrest' ?_ hv.depth, rfl,
    hskip.trans (after_eq_of_headed henc)⟩
  · have hitems : ((c.count + 1 + (itemCount v - 1) : ℕ) : ℤ) ≤ limits.maxItems := hv.items
    rw [cborLayout_size]
    omega

/-- To read a value is to read what follows its head byte. -/
theorem readValue_of_body {c : Cursor} {v w : CborValue} (major ai : ℕ) (tail : Bytes)
    (hmajor : major < 8) (hai : ai < 32) (henc : encodeCbor v = UInt8.ofNat (major * 32 + ai) :: tail)
    (h : Lies utf8 limits (levels + 1) c [v])
    (hbody : readBody utf8 (readValue utf8 limits levels) major ai (afterHead c) =
      .ok (w, ((afterHead c).skip tail.length).counted (itemCount v - 1))) :
    readValue utf8 limits (levels + 1) c = .ok (w, after c [v]) := by
  obtain ⟨r, hr⟩ : ∃ r, c.rest = encodeCbor v ++ r := h.rest_singleton
  have hpos := itemCount_pos v
  have hitems : ((c.count + itemCount v : ℕ) : ℤ) ≤ limits.maxItems := h.items_singleton
  rw [henc, List.cons_append] at hr
  have htally : Reader.tally limits.maxItems (cborError s!"more than {limits.maxItems} items") c =
      .ok ((), c.counted 1) :=
    Reader.tally_eq_ok.mpr ⟨by omega, rfl⟩
  have hhead : cborByte (c.counted 1) = .ok (UInt8.ofNat (major * 32 + ai), afterHead c) :=
    Reader.byte_eq_ok.mpr ⟨⟨tail ++ r, hr⟩, rfl⟩
  rw [readValue, Reader.bind_of_ok htally, Reader.bind_of_ok hhead, head_major _ _ hmajor hai,
    head_ai _ _ hai, hbody, after_eq_of_headed henc]

/-- A supported integer, of either type, is the value that stands for it. -/
theorem supported_number {n : ℤ} (h : Supported (.number n)) :
    CborValue.number n = integerValue n ∧ -2 ^ 64 ≤ n ∧ n < 2 ^ 64 := by
  cases h with
  | number hsmall =>
    obtain ⟨hlow, hhigh⟩ := hsmall
    refine ⟨?_, by omega, by omega⟩
    unfold integerValue
    rw [if_pos ⟨hlow, hhigh⟩]

theorem supported_bigint {n : ℤ} (h : Supported (.bigint n)) :
    CborValue.bigint n = integerValue n ∧ -2 ^ 64 ≤ n ∧ n < 2 ^ 64 := by
  cases h with
  | bigint hbig =>
    obtain ⟨hnot, hlow, hhigh⟩ := hbig
    refine ⟨?_, hlow, hhigh⟩
    unfold integerValue SmallInteger at *
    rw [if_neg hnot]

section Complete

variable {ai : ℕ} {c : Cursor}

theorem readBody_unsigned : readBody utf8 item MT_UNSIGNED ai = (do pure (unsignedValue (← argument ai))) :=
  rfl

theorem readBody_negative : readBody utf8 item MT_NEGATIVE ai = (do pure (negativeValue (← argument ai))) :=
  rfl

theorem readBody_bytes : readBody utf8 item MT_BYTES ai =
    (do pure (.bytes (← cborBytes (← countArgument ai "byte string length")))) :=
  rfl

theorem readBody_text : readBody utf8 item MT_TEXT ai = (do
    let raw ← cborBytes (← countArgument ai "text string length")
    match utf8.decode raw with
    | some s => pure (.text s)
    | none => Reader.raise (cborError "text string is not valid UTF-8")) :=
  rfl

theorem readBody_array : readBody utf8 item MT_ARRAY ai =
    (do pure (.array (← Reader.times item (← countArgument ai "array length")))) :=
  rfl

theorem readBody_map : readBody utf8 item MT_MAP ai =
    (do pure (.map (← readPairs item (← countArgument ai "map size") []))) :=
  rfl

theorem readBody_simple : readBody utf8 item 7 ai = readSimple ai := rfl

/-- An integer that lies ahead is read. -/
theorem readValue_integer {z : ℤ} (hc : c.Inside) (hlow : -2 ^ 64 ≤ z) (hhigh : z < 2 ^ 64)
    (h : Lies utf8 limits (levels + 1) c [integerValue z]) :
    readValue utf8 limits (levels + 1) c = .ok (integerValue z, after c [integerValue z]) := by
  obtain ⟨r, hr⟩ := h.rest_singleton
  rw [cborLayout_encode, encodeCbor_integerValue] at hr
  have hone : ∀ c : Cursor, c.counted (itemCount (integerValue z) - 1) = c := by
    intro c
    rw [itemCount_integerValue]
    rfl
  by_cases hz : 0 ≤ z
  · obtain ⟨n, rfl⟩ := Int.eq_ofNat_of_zero_le hz
    obtain ⟨ai, raw, hraw, hread⟩ := argument_complete (n := n) (by omega)
    rw [encodeInteger_unsigned, hraw.2.2] at hr
    refine readValue_of_body MT_UNSIGNED ai raw (by norm_num [MT_UNSIGNED]) hraw.1 ?_ h ?_
    · rw [encodeCbor_integerValue, encodeInteger_unsigned, hraw.2.2]
    · have hbody := hread (afterHead c) r (afterHead_inside hc hr) (afterHead_rest hr)
      rw [hone, readBody_unsigned, Reader.bind_of_ok hbody, unsignedValue_eq rfl]
      rfl
  · obtain ⟨n, hn⟩ := Int.eq_ofNat_of_zero_le (show 0 ≤ -1 - z by omega)
    obtain rfl : z = -1 - (n : ℤ) := by omega
    obtain ⟨ai, raw, hraw, hread⟩ := argument_complete (n := n) (by omega)
    rw [encodeInteger_negative, hraw.2.2] at hr
    refine readValue_of_body MT_NEGATIVE ai raw (by norm_num [MT_NEGATIVE]) hraw.1 ?_ h ?_
    · rw [encodeCbor_integerValue, encodeInteger_negative, hraw.2.2]
    · have hbody := hread (afterHead c) r (afterHead_inside hc hr) (afterHead_rest hr)
      rw [hone, readBody_negative, Reader.bind_of_ok hbody, negativeValue_eq rfl]
      rfl

/-- What a count is followed by, behind the head byte of its item. -/
theorem counted_ahead {major n : ℕ} {payload : Bytes} {raw r : Bytes} {what : String}
    (hc : c.Inside) (hraw : Follows ai n raw) (hn : n ≤ payload.length)
    (hread : ∀ (c : Cursor) (r : Bytes), c.Inside → c.rest = raw ++ r → n ≤ r.length →
      countArgument ai what c = .ok (n, c.skip raw.length))
    (hr : c.rest = shortestHead major n ++ payload ++ r) :
    (afterHead c).Inside ∧ countArgument ai what (afterHead c) = .ok (n, (afterHead c).skip raw.length) ∧
      ((afterHead c).skip raw.length).Inside ∧ ((afterHead c).skip raw.length).rest = payload ++ r := by
  rw [hraw.2.2, List.append_assoc, List.cons_append] at hr
  have hin := afterHead_inside hc hr
  have hrest := afterHead_rest hr
  have hleft : n ≤ (payload ++ r).length := by
    rw [List.length_append]
    omega
  exact ⟨hin, hread _ _ hin hrest hleft, Cursor.skip_inside_of_append hin hrest,
    Cursor.skip_rest_of_append hrest⟩

/-- Bytes that lie ahead are read. -/
theorem cborBytes_complete {payload r : Bytes} (hc : c.Inside) (hr : c.rest = payload ++ r) :
    cborBytes payload.length c = .ok (payload, c.skip payload.length) := by
  have hlen := c.rest_length
  rw [hr, List.length_append] at hlen
  refine (Reader.bytes_eq_ok hc).mpr ⟨by omega, ?_, rfl⟩
  rw [hr, List.take_left]

/-- What lies ahead is no longer than the buffer. -/
theorem length_le_of_rest {head payload r : Bytes} (hbuf : c.buf.length ≤ MAX_SAFE_INTEGER)
    (hr : c.rest = head ++ payload ++ r) : payload.length ≤ MAX_SAFE_INTEGER := by
  have hlen := c.rest_length
  rw [hr, List.length_append, List.length_append] at hlen
  unfold Cursor.remaining at hlen
  omega

theorem readValue_bytes {b : Bytes} (hc : c.Inside) (hbuf : c.buf.length ≤ MAX_SAFE_INTEGER)
    (h : Lies utf8 limits (levels + 1) c [.bytes b]) :
    readValue utf8 limits (levels + 1) c = .ok (.bytes b, after c [.bytes b]) := by
  obtain ⟨r, hr⟩ := h.rest_singleton
  rw [cborLayout_encode, encodeCbor] at hr
  obtain ⟨ai, raw, hraw, hread⟩ := countArgument_complete (length_le_of_rest hbuf hr) "byte string length"
  obtain ⟨-, hcount, hin, hrest⟩ := counted_ahead hc hraw le_rfl hread hr
  refine readValue_of_body MT_BYTES ai (raw ++ b) (by norm_num [MT_BYTES]) hraw.1 ?_ h ?_
  · rw [encodeCbor, hraw.2.2, List.cons_append]
  · rw [readBody_bytes, Reader.bind_of_ok hcount, Reader.bind_of_ok (cborBytes_complete hin hrest),
      List.length_append, ← Cursor.skip_skip]
    simp [itemCount, Reader.pure_apply]

theorem readValue_text {s : String} (hc : c.Inside) (hbuf : c.buf.length ≤ MAX_SAFE_INTEGER)
    (h : Lies utf8 limits (levels + 1) c [.text s]) :
    readValue utf8 limits (levels + 1) c = .ok (.text (utf8.reading s), after c [.text s]) := by
  obtain ⟨r, hr⟩ := h.rest_singleton
  rw [cborLayout_encode, encodeCbor, encodeText] at hr
  obtain ⟨ai, raw, hraw, hread⟩ := countArgument_complete (length_le_of_rest hbuf hr) "text string length"
  obtain ⟨-, hcount, hin, hrest⟩ := counted_ahead hc hraw le_rfl hread hr
  refine readValue_of_body MT_TEXT ai (raw ++ Attestation.utf8 s) (by norm_num [MT_TEXT]) hraw.1 ?_ h ?_
  · rw [encodeCbor, encodeText, hraw.2.2, List.cons_append]
  · rw [readBody_text, Reader.bind_of_ok hcount, Reader.bind_of_ok (cborBytes_complete hin hrest),
      decode_utf8, List.length_append, ← Cursor.skip_skip]
    simp [itemCount, Reader.pure_apply]

theorem readValue_array (hitem : ReadsValues utf8 limits levels (readValue utf8 limits levels))
    {vs : List CborValue} (hc : c.Inside) (hbuf : c.buf.length ≤ MAX_SAFE_INTEGER)
    (h : Lies utf8 limits (levels + 1) c [.array vs]) :
    readValue utf8 limits (levels + 1) c =
      .ok ((CborValue.array vs).mapText utf8.reading, after c [.array vs]) := by
  obtain ⟨r, hr⟩ := h.rest_singleton
  rw [cborLayout_encode, encodeCbor] at hr
  have hlen := length_le_encode vs
  obtain ⟨ai, raw, hraw, hread⟩ :=
    countArgument_complete (hlen.trans (length_le_of_rest hbuf hr)) "array length"
  obtain ⟨-, hcount, hin, hrest⟩ := counted_ahead hc hraw hlen hread hr
  have hvs : Lies utf8 limits levels ((afterHead c).skip raw.length) vs := by
    have hitems := h.items_singleton
    rw [cborLayout_size, itemCount] at hitems
    refine ⟨supported_array.mp (h.valid_singleton), ⟨r, hrest⟩, ?_,
      nesting_array_lt.mp (h.depth_singleton)⟩
    simp only [afterHead, Cursor.skip_count, Cursor.counted_count, cborLayout_size]
    omega
  refine readValue_of_body MT_ARRAY ai (raw ++ vs.flatMap encodeCbor) (by norm_num [MT_ARRAY]) hraw.1 ?_ h ?_
  · rw [encodeCbor, hraw.2.2, List.cons_append]
  · have hitems := Layout.times_complete hitem hin hbuf hvs
    rw [readBody_array, Reader.bind_of_ok hcount, Reader.bind_of_ok hitems, List.length_append,
      ← Cursor.skip_skip, CborValue.mapText, itemCount, Nat.add_sub_cancel_left]
    rfl

theorem readValue_map (hitem : ReadsValues utf8 limits levels (readValue utf8 limits levels))
    {es : List (CborKey × CborValue)} (hc : c.Inside) (hbuf : c.buf.length ≤ MAX_SAFE_INTEGER)
    (h : Lies utf8 limits (levels + 1) c [.map es]) :
    readValue utf8 limits (levels + 1) c =
      .ok ((CborValue.map es).mapText utf8.reading, after c [.map es]) := by
  obtain ⟨r, hr⟩ := h.rest_singleton
  rw [cborLayout_encode, encodeCbor, ← encode_flatEntries] at hr
  have hlen : es.length ≤ ((flatEntries es).flatMap encodeCbor).length := by
    refine le_trans ?_ (length_le_encode (flatEntries es))
    unfold flatEntries
    rw [List.length_flatMap]
    simp
    omega
  obtain ⟨ai, raw, hraw, hread⟩ :=
    countArgument_complete (hlen.trans (length_le_of_rest hbuf hr)) "map size"
  obtain ⟨-, hcount, hin, hrest⟩ := counted_ahead hc hraw hlen hread hr
  obtain ⟨hsupported, hnodup⟩ := supported_map.mp (h.valid_singleton)
  have hes : Lies utf8 limits levels ((afterHead c).skip raw.length) (flatEntries es) := by
    have hitems := h.items_singleton
    rw [cborLayout_size, itemCount] at hitems
    refine ⟨hsupported, ⟨r, hrest⟩, ?_, nesting_map_lt.mp (h.depth_singleton)⟩
    simp only [afterHead, Cursor.skip_count, Cursor.counted_count, cborLayout_size, itemCount_flatEntries]
    omega
  refine readValue_of_body MT_MAP ai (raw ++ (flatEntries es).flatMap encodeCbor) (by norm_num [MT_MAP])
    hraw.1 ?_ h ?_
  · rw [encodeCbor, hraw.2.2, List.cons_append, encode_flatEntries]
  · have hdistinct : ((([] : List (CborKey × CborValue)) ++ es.map (readEntry utf8)).map Prod.fst).Nodup :=
      hnodup
    have hitems := readPairs_complete hitem hin hbuf hdistinct hes
    rw [readBody_map, Reader.bind_of_ok hcount, Reader.bind_of_ok hitems, List.length_append,
      ← Cursor.skip_skip, CborValue.mapText, itemCount, Nat.add_sub_cancel_left, ← itemCount_flatEntries]
    rfl

/-- A simple value that lies ahead is read. -/
theorem readValue_simple {v : CborValue} {ai : ℕ} (hai : ai < 32)
    (henc : encodeCbor v = [UInt8.ofNat (7 * 32 + ai)]) (hitems : itemCount v = 1)
    (hread : readSimple ai = pure v) (h : Lies utf8 limits (levels + 1) c [v]) :
    readValue utf8 limits (levels + 1) c = .ok (v, after c [v]) := by
  refine readValue_of_body 7 ai [] (by norm_num) hai henc h ?_
  rw [readBody_simple, hread, hitems]
  rfl

/-- One level up: a value that lies ahead is read. -/
theorem readValue_complete (hitem : ReadsValues utf8 limits levels (readValue utf8 limits levels))
    {v : CborValue} (hc : c.Inside) (hbuf : c.buf.length ≤ MAX_SAFE_INTEGER)
    (h : Lies utf8 limits (levels + 1) c [v]) :
    readValue utf8 limits (levels + 1) c = .ok (v.mapText utf8.reading, after c [v]) := by
  have hsupported := h.valid_singleton
  cases v with
  | number n =>
    rw [CborValue.mapText] at hsupported ⊢
    obtain ⟨heq, hlow, hhigh⟩ := supported_number hsupported
    rw [heq] at h ⊢
    exact readValue_integer hc hlow hhigh h
  | bigint n =>
    rw [CborValue.mapText] at hsupported ⊢
    obtain ⟨heq, hlow, hhigh⟩ := supported_bigint hsupported
    rw [heq] at h ⊢
    exact readValue_integer hc hlow hhigh h
  | text s =>
    rw [CborValue.mapText]
    exact readValue_text hc hbuf h
  | bytes b =>
    rw [CborValue.mapText]
    exact readValue_bytes hc hbuf h
  | bool b =>
    rw [CborValue.mapText]
    cases b with
    | false =>
      exact readValue_simple (show 20 < 32 by norm_num) (by rw [encodeCbor]; rfl) (by simp [itemCount]) rfl h
    | true =>
      exact readValue_simple (show 21 < 32 by norm_num) (by rw [encodeCbor]; rfl) (by simp [itemCount]) rfl h
  | null =>
    rw [CborValue.mapText]
    exact readValue_simple (show 22 < 32 by norm_num) (by rw [encodeCbor]; rfl) (by simp [itemCount]) rfl h
  | undefined =>
    rw [CborValue.mapText]
    exact readValue_simple (show 23 < 32 by norm_num) (by rw [encodeCbor]; rfl) (by simp [itemCount]) rfl h
  | array vs => exact readValue_array hitem hc hbuf h
  | map es => exact readValue_map hitem hc hbuf h

end Complete

/-- At every level `readValue` reads the values that lie ahead and nothing else. -/
theorem readsValues (utf8 : TextDecoder) (limits : CborLimits) (levels : ℕ) :
    ReadsValues utf8 limits levels (readValue utf8 limits levels) := by
  induction levels with
  | zero =>
    constructor
    · intro c c' w _ h
      exact (Reader.raise_eq_ok.mp h).elim
    · intro c v _ _ h
      exact absurd h.depth_singleton (Nat.not_lt_zero _)
  | succ levels ih =>
    constructor
    · intro c c' w hc h
      exact readValue_sound ih hc h
    · intro c v hc hbuf h
      exact readValue_complete ih hc hbuf h

end Value

/-! ## No access outside of the buffer -/

theorem safe_argument (ai : ℕ) : Safe (argument ai) := by
  unfold argument
  refine Safe.ite (Safe.pure _) ?_
  refine Safe.bind (Safe.require _ _) fun _ => Safe.bind (Safe.require _ _) fun _ => ?_
  refine Safe.bind (Safe.bytes _ _) fun raw => Safe.bind (Safe.require _ _) fun _ => ?_
  exact Safe.pure _

theorem safe_countArgument (ai : ℕ) (what : String) : Safe (countArgument ai what) := by
  unfold countArgument
  refine Safe.bind (safe_argument ai) ?_
  intro arg
  split
  · exact Safe.raise _
  · refine Safe.bind Safe.remaining fun left => Safe.bind (Safe.require _ _) fun _ => ?_
    exact Safe.pure _

theorem safe_readPairs {item : CborReader CborValue} (hitem : Safe item) (n : ℕ)
    (out : List (CborKey × CborValue)) : Safe (readPairs item n out) := by
  induction n generalizing out with
  | zero => exact Safe.pure _
  | succ n ih =>
    unfold readPairs
    refine Safe.bind hitem ?_
    intro key
    split
    · exact Safe.raise _
    · refine Safe.bind (Safe.require _ _) fun _ => Safe.bind hitem fun value => ?_
      exact ih _

theorem safe_readSimple (ai : ℕ) : Safe (readSimple ai) := by
  unfold readSimple
  split
  case h_5 => exact Safe.raise _
  all_goals exact Safe.pure _

theorem safe_readBody (utf8 : TextDecoder) {item : CborReader CborValue} (hitem : Safe item) (major ai : ℕ) :
    Safe (readBody utf8 item major ai) := by
  unfold readBody
  split
  · exact Safe.bind (safe_argument ai) fun arg => Safe.pure _
  · exact Safe.bind (safe_argument ai) fun arg => Safe.pure _
  · exact Safe.bind (safe_countArgument ai _) fun n => Safe.bind (Safe.bytes n _) fun b => Safe.pure _
  · refine Safe.bind (safe_countArgument ai _) fun n => Safe.bind (Safe.bytes n _) fun raw => ?_
    split
    · exact Safe.pure _
    · exact Safe.raise _
  · exact Safe.bind (safe_countArgument ai _) fun n => Safe.bind (Safe.times hitem n) fun xs => Safe.pure _
  · exact Safe.bind (safe_countArgument ai _) fun n =>
      Safe.bind (safe_readPairs hitem n []) fun es => Safe.pure _
  · exact Safe.raise _
  · exact safe_readSimple ai

theorem safe_readValue (utf8 : TextDecoder) (limits : CborLimits) (levels : ℕ) :
    Safe (readValue utf8 limits levels) := by
  induction levels with
  | zero => exact Safe.raise _
  | succ levels ih =>
    unfold readValue
    exact Safe.bind (Safe.tally _ _) fun _ => Safe.bind (Safe.byte _) fun head => safe_readBody utf8 ih _ _

/-! ## The decoder -/

section Decoder

variable {utf8 : TextDecoder} {limits : CborLimits} {input : Bytes}

theorem safe_readInput (utf8 : TextDecoder) (limits : CborLimits) : Safe (readInput utf8 limits) := by
  unfold readInput
  refine Safe.bind (safe_readValue _ _ _) fun value => Safe.bind ?_ fun _ => Safe.pure _
  exact Safe.bind Safe.remaining fun left => Safe.require _ _

/-- A decoder never reads outside of its input. -/
theorem decodeWith_ne_fault : decodeWith utf8 limits input ≠ .error .fault := by
  unfold decodeWith
  split_ifs
  · simp
  · exact (safe_readInput utf8 limits).run_ne_fault input

theorem requireEnd_eq_ok {c : Cursor} {r : Unit × Cursor} :
    requireEnd c = .ok r ↔ c.remaining = 0 ∧ r.2 = c := by
  unfold requireEnd
  simp only [Reader.bind_eq_ok, Reader.remaining_eq_ok, Reader.require_eq_ok, Prod.mk.injEq]
  constructor
  · rintro ⟨left, c', ⟨rfl, rfl⟩, hleft, hr⟩
    exact ⟨hleft, hr⟩
  · rintro ⟨hleft, hr⟩
    exact ⟨_, c, ⟨rfl, rfl⟩, hleft, hr⟩

/-- To decode is to read one value, with nothing left. -/
theorem decodeWith_eq_ok_iff_read {w : CborValue} :
    decodeWith utf8 limits input = .ok w ↔ (input.length : ℤ) ≤ limits.maxBytes ∧
      ∃ c, readValue utf8 limits (limits.maxDepth + 1).toNat (Cursor.start input) = .ok (w, c) ∧
        c.remaining = 0 := by
  unfold decodeWith
  by_cases hlimit : (input.length : ℤ) ≤ limits.maxBytes
  · rw [if_neg (by omega), Reader.run_eq_ok]
    unfold readInput
    simp only [Reader.bind_eq_ok, requireEnd_eq_ok, Reader.pure_eq_ok]
    constructor
    · rintro ⟨c, w', c₁, hread, _, c₂, ⟨hend, hsame⟩, rfl, rfl⟩
      exact ⟨hlimit, c₁, hread, hend⟩
    · rintro ⟨-, c, hread, hend⟩
      exact ⟨c, w, c, hread, (), c, ⟨hend, rfl⟩, rfl, rfl⟩
  · rw [if_pos (by omega)]
    simp [hlimit]

/-- A decoder returns a value exactly for the shortest form of one within the limits, of which it returns
its own reading. -/
theorem decodeWith_eq_ok (hbound : input.length ≤ MAX_SAFE_INTEGER) {w : CborValue} :
    decodeWith utf8 limits input = .ok w ↔
      ∃ v, Supported (v.mapText utf8.reading) ∧ Fits limits v ∧ encodeCbor v = input ∧
        w = v.mapText utf8.reading := by
  have hreads := readsValues utf8 limits (limits.maxDepth + 1).toNat
  rw [decodeWith_eq_ok_iff_read]
  constructor
  · rintro ⟨hbytes, c, hread, hend⟩
    obtain ⟨v, hv, rfl, rfl⟩ := hreads.sound (Cursor.start_inside input) hread
    obtain ⟨r, hr⟩ := hv.rest
    have hnil : r = [] := by
      have hlen := (after (Cursor.start input) [v]).rest_length
      rw [Layout.after_rest hr, hend] at hlen
      exact List.length_eq_zero_iff.mp hlen
    have hinput : encodeCbor v = input := by
      rw [Cursor.start_rest, hnil] at hr
      simpa using hr.symm
    have hitems := hv.items_singleton
    have hdepth : nesting v < (limits.maxDepth + 1).toNat := hv.depth_singleton
    refine ⟨v, hv.valid_singleton, ⟨?_, ?_, by omega⟩, hinput, rfl⟩
    · rw [hinput]
      exact hbytes
    · simpa using hitems
  · rintro ⟨v, hsupported, hfits, rfl, rfl⟩
    have hdepth := hfits.depth
    have hlevels : nesting v < (limits.maxDepth + 1).toNat := by omega
    have hrest : (Cursor.start (encodeCbor v)).rest = cborLayout.encode v ++ [] := by simp
    have hlies : Lies utf8 limits (limits.maxDepth + 1).toNat (Cursor.start (encodeCbor v)) [v] :=
      Layout.ahead_singleton hsupported hrest (by simpa using hfits.items) hlevels
    refine ⟨hfits.bytes, _, hreads.complete (Cursor.start_inside _) hbound hlies, ?_⟩
    have hend : (after (Cursor.start (encodeCbor v)) [v]).rest = [] := Layout.after_rest (by simp)
    rw [← Cursor.rest_length, hend]
    rfl

end Decoder

end SdidBridge.Attestation
