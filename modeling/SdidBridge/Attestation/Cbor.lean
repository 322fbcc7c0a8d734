import Mathlib.Data.String.Basic
import SdidBridge.Codec.Digits
import SdidBridge.Codec.Reader

/-!
# The CBOR decoder

`cbor.ts` of the attestation package. The reader is the class `CborReader`: its buffer and position are a
cursor, its `items` the count of the cursor. `encodeCbor` is the shortest-form encoder that the decoder is
compared with; the package itself has none.
-/

namespace SdidBridge.Attestation

open Codec

/-- A string of bytes. -/
abbrev Bytes := List UInt8

/-- `Buffer.from(s, 'utf8')`. -/
def utf8 (s : String) : Bytes := s.toUTF8.data.toList

theorem utf8_injective {s s' : String} (h : utf8 s = utf8 s') : s = s' := by
  unfold utf8 at h
  have hbytes : s.toUTF8 = s'.toUTF8 := ByteArray.ext (Array.toList_inj.mp h)
  exact String.toByteArray_inj.mp hbytes

/-- `Number.MAX_SAFE_INTEGER`. -/
def MAX_SAFE_INTEGER : ℕ := 2 ^ 53 - 1

/-- A `Uint8Array`, whose length is an index. -/
structure Uint8Array where
  /-- The bytes. -/
  bytes : Bytes
  /-- The greatest index is a safe integer. -/
  bound : bytes.length ≤ MAX_SAFE_INTEGER

/-! ## Text -/

/-- The byte-order mark. -/
def BYTE_ORDER_MARK : Char := '\uFEFF'

/-- Whether a text begins with the mark. -/
def marked (s : String) : Bool := s.toList.head? = some BYTE_ORDER_MARK

/-- A text without the mark that it begins with. -/
def dropMark (s : String) : String := if marked s then String.ofList s.toList.tail else s

/-- A `TextDecoder` for UTF-8 that is fatal: it drops a leading mark unless `ignoreBOM` is set. -/
structure TextDecoder where
  /-- The option of this name. -/
  ignoreBOM : Bool

/-- What the decoder makes of a text that the bytes are the UTF-8 of. -/
def TextDecoder.reading (d : TextDecoder) (s : String) : String := if d.ignoreBOM then s else dropMark s

/-- `decode`, which throws with `none`. -/
def TextDecoder.decode (d : TextDecoder) (raw : Bytes) : Option String :=
  (String.fromUTF8? ⟨raw.toArray⟩).map d.reading

/-- `new TextDecoder('utf-8', { fatal: true })`. -/
def utf8Decoder : TextDecoder := { ignoreBOM := false }

/-! ## Values, limits and errors -/

/-- A key of a map. -/
inductive CborKey where
  | text (s : String)
  | number (n : ℤ)
  deriving DecidableEq

/-- A decoded value. A map is the list of its entries in the order of their insertion. -/
inductive CborValue where
  | number (n : ℤ)
  | bigint (n : ℤ)
  | text (s : String)
  | bytes (b : Bytes)
  | bool (b : Bool)
  | null
  | undefined
  | array (items : List CborValue)
  | map (entries : List (CborKey × CborValue))

/-- The limits of a decoder. A fractional limit of the source acts as its floor. -/
structure CborLimits where
  /-- Nesting of arrays and maps. -/
  maxDepth : ℤ
  /-- Items, the members of containers among them. -/
  maxItems : ℤ
  /-- Bytes of the input. -/
  maxBytes : ℤ

/-- The default limits. -/
def DEFAULT_CBOR_LIMITS : CborLimits where
  maxDepth := 8
  maxItems := 1024
  maxBytes := 128 * 1024

/-- `Partial<CborLimits>`. -/
structure PartialCborLimits where
  /-- Nesting of arrays and maps. -/
  maxDepth : Option ℤ
  /-- Items. -/
  maxItems : Option ℤ
  /-- Bytes of the input. -/
  maxBytes : Option ℤ

/-- `{ ...DEFAULT_CBOR_LIMITS, ...limits }`. -/
def PartialCborLimits.effective (limits : PartialCborLimits) : CborLimits where
  maxDepth := limits.maxDepth.getD DEFAULT_CBOR_LIMITS.maxDepth
  maxItems := limits.maxItems.getD DEFAULT_CBOR_LIMITS.maxItems
  maxBytes := limits.maxBytes.getD DEFAULT_CBOR_LIMITS.maxBytes

/-- A `CborError`. -/
structure CborError where
  /-- Its message. -/
  message : String
  deriving DecidableEq

/-- `new CborError(message)`. -/
def cborError (message : String) : CborError := ⟨"cbor: " ++ message⟩

/-! ## The reader -/

/-- The methods of `CborReader`. -/
abbrev CborReader := Reader CborError

/-- Unsigned integers. -/
def MT_UNSIGNED : ℕ := 0

/-- Negative integers. -/
def MT_NEGATIVE : ℕ := 1

/-- Byte strings. -/
def MT_BYTES : ℕ := 2

/-- Text strings. -/
def MT_TEXT : ℕ := 3

/-- Arrays. -/
def MT_ARRAY : ℕ := 4

/-- Maps. -/
def MT_MAP : ℕ := 5

/-- The additional information of an indefinite length. -/
def AI_INDEFINITE : ℕ := 31

/-- `byte`. -/
def cborByte : CborReader UInt8 := Reader.byte (cborError "unexpected end of input")

/-- `bytes`. -/
def cborBytes (n : ℕ) : CborReader Bytes :=
  Reader.bytes n fun left => cborError s!"declared length {n} exceeds {left} byte(s) remaining"

/-- The argument of a head byte. -/
structure Argument where
  /-- As a number, which is NaN, here `none`, above the safe integers. -/
  value : Option ℕ
  /-- As a bigint. -/
  big : ℕ

/-- `argument`. -/
def argument (ai : ℕ) : CborReader Argument :=
  if ai < 24 then pure { value := some ai, big := ai }
  else do
    Reader.require (ai ≠ AI_INDEFINITE) (cborError "indefinite-length items are not accepted")
    Reader.require (ai ≤ 27) (cborError s!"reserved additional information {ai}")
    let width := 1 <<< (ai - 24)
    let raw ← cborBytes width
    let big := raw.foldl (fun big b => big <<< 8 ||| b.toNat) 0
    let minimum := if ai = 24 then 24 else 1 <<< (8 * (width >>> 1))
    Reader.require (minimum ≤ big) (cborError "non-canonical integer encoding")
    pure { value := if big ≤ MAX_SAFE_INTEGER then some big else none, big := big }

/-- `countArgument`. -/
def countArgument (ai : ℕ) (what : String) : CborReader ℕ := do
  let arg ← argument ai
  match arg.value with
  | none => Reader.raise (cborError s!"{what} {arg.big} is absurd")
  | some value => do
    let left ← Reader.remaining
    Reader.require (value ≤ left) (cborError s!"{what} {value} exceeds {left} byte(s) remaining")
    pure value

/-- The value of an argument that stands for an unsigned integer. -/
def unsignedValue (arg : Argument) : CborValue :=
  match arg.value with
  | some value => .number value
  | none => .bigint arg.big

/-- The value of an argument that stands for a negative integer. -/
def negativeValue (arg : Argument) : CborValue :=
  match arg.value with
  | some value => .number (-1 - value)
  | none => .bigint (-1 - arg.big)

/-- What a value is as a key, if its type is that of a key. -/
def asKey : CborValue → Option CborKey
  | .text s => some (.text s)
  | .number n => some (.number n)
  | _ => none

/-- The loop over the pairs of a map, after those in `out`. -/
def readPairs (item : CborReader CborValue) :
    ℕ → List (CborKey × CborValue) → CborReader (List (CborKey × CborValue))
  | 0, out => pure out
  | n + 1, out => do
    let key ← item
    match asKey key with
    | none => Reader.raise (cborError "map keys must be text strings or small integers")
    | some key => do
      Reader.require (key ∉ out.map Prod.fst) (cborError "duplicate map key")
      let value ← item
      readPairs item n (out ++ [(key, value)])

/-- The simple values. -/
def readSimple (ai : ℕ) : CborReader CborValue :=
  match ai with
  | 20 => pure (.bool false)
  | 21 => pure (.bool true)
  | 22 => pure .null
  | 23 => pure .undefined
  | _ => Reader.raise (cborError s!"unsupported simple value {ai}")

/-- The body of `readValue` after its checks, with `item` for the calls one level down. -/
def readBody (utf8 : TextDecoder) (item : CborReader CborValue) (major ai : ℕ) : CborReader CborValue :=
  match major with
  | 0 => do pure (unsignedValue (← argument ai))
  | 1 => do pure (negativeValue (← argument ai))
  | 2 => do pure (.bytes (← cborBytes (← countArgument ai "byte string length")))
  | 3 => do
    let raw ← cborBytes (← countArgument ai "text string length")
    match utf8.decode raw with
    | some s => pure (.text s)
    | none => Reader.raise (cborError "text string is not valid UTF-8")
  | 4 => do pure (.array (← Reader.times item (← countArgument ai "array length")))
  | 5 => do pure (.map (← readPairs item (← countArgument ai "map size") []))
  | 6 => Reader.raise (cborError "tagged items are not accepted")
  | _ => readSimple ai

/-- `readValue`. Its depth is `maxDepth + 1 - levels`, so that it is too great when no level is left. -/
def readValue (utf8 : TextDecoder) (limits : CborLimits) : ℕ → CborReader CborValue
  | 0 => Reader.raise (cborError s!"nesting deeper than {limits.maxDepth}")
  | levels + 1 => do
    Reader.tally limits.maxItems (cborError s!"more than {limits.maxItems} items")
    let head ← cborByte
    readBody utf8 (readValue utf8 limits levels) (head.toNat >>> 5) (head.toNat &&& 0x1f)

/-- `requireEnd`. -/
def requireEnd : CborReader Unit := do
  let left ← Reader.remaining
  Reader.require (left = 0) (cborError s!"{left} trailing byte(s) after top-level item")

/-- The item of a whole input. -/
def readInput (utf8 : TextDecoder) (limits : CborLimits) : CborReader CborValue := do
  let value ← readValue utf8 limits (limits.maxDepth + 1).toNat
  requireEnd
  pure value

/-- `decodeCbor` with the text decoder and the limits in force. -/
def decodeWith (utf8 : TextDecoder) (limits : CborLimits) (input : Bytes) :
    Except (Failure CborError) CborValue :=
  if (input.length : ℤ) > limits.maxBytes then
    .error (.raised (cborError s!"input of {input.length} bytes exceeds limit {limits.maxBytes}"))
  else Reader.run (readInput utf8 limits) input

/-- `decodeCbor`. -/
def decodeCbor (input : Uint8Array) (limits : PartialCborLimits) :
    Except (Failure CborError) CborValue :=
  decodeWith utf8Decoder limits.effective input.bytes

/-! ## The shortest form -/

/-- The head of an item with the argument `n`, in as few bytes as it takes. -/
def shortestHead (major n : ℕ) : Bytes :=
  if n < 24 then [UInt8.ofNat (major * 32 + n)]
  else if n < 256 then UInt8.ofNat (major * 32 + 24) :: beBytes 1 n
  else if n < 256 ^ 2 then UInt8.ofNat (major * 32 + 25) :: beBytes 2 n
  else if n < 256 ^ 4 then UInt8.ofNat (major * 32 + 26) :: beBytes 4 n
  else UInt8.ofNat (major * 32 + 27) :: beBytes 8 n

/-- An integer. -/
def encodeInteger (n : ℤ) : Bytes :=
  if 0 ≤ n then shortestHead MT_UNSIGNED n.toNat else shortestHead MT_NEGATIVE (-1 - n).toNat

/-- A text string. -/
def encodeText (s : String) : Bytes := shortestHead MT_TEXT (utf8 s).length ++ utf8 s

/-- A key. -/
def encodeKey : CborKey → Bytes
  | .text s => encodeText s
  | .number n => encodeInteger n

theorem sizeOf_item_lt {items : List CborValue} {v : CborValue} (h : v ∈ items) :
    sizeOf v < sizeOf (CborValue.array items) := by
  have hlt := List.sizeOf_lt_of_mem h
  simp only [CborValue.array.sizeOf_spec]
  omega

theorem sizeOf_entry_lt {entries : List (CborKey × CborValue)} {e : CborKey × CborValue} (h : e ∈ entries) :
    sizeOf e.2 < sizeOf (CborValue.map entries) := by
  have hlt := List.sizeOf_lt_of_mem h
  obtain ⟨k, v⟩ := e
  simp only [Prod.mk.sizeOf_spec] at hlt
  simp only [CborValue.map.sizeOf_spec]
  omega

/-- Induction over values: what holds of the items of an array and the values of a map holds of these. -/
@[elab_as_elim]
theorem CborValue.inductOn {P : CborValue → Prop} (v : CborValue) (number : ∀ n, P (.number n))
    (bigint : ∀ n, P (.bigint n)) (text : ∀ s, P (.text s)) (bytes : ∀ b, P (.bytes b))
    (bool : ∀ b, P (.bool b)) (null : P .null) (undefined : P .undefined)
    (array : ∀ items, (∀ v ∈ items, P v) → P (.array items))
    (map : ∀ entries, (∀ e ∈ entries, P e.2) → P (.map entries)) : P v :=
  match v with
  | .number n => number n
  | .bigint n => bigint n
  | .text s => text s
  | .bytes b => bytes b
  | .bool b => bool b
  | .null => null
  | .undefined => undefined
  | .array items =>
    array items fun u _ => inductOn u number bigint text bytes bool null undefined array map
  | .map entries =>
    map entries fun e _ => inductOn e.2 number bigint text bytes bool null undefined array map
decreasing_by exacts [sizeOf_item_lt ‹_›, sizeOf_entry_lt ‹_›]

/-- A value in the shortest form. -/
def encodeCbor : CborValue → Bytes
  | .number n => encodeInteger n
  | .bigint n => encodeInteger n
  | .text s => encodeText s
  | .bytes b => shortestHead MT_BYTES b.length ++ b
  | .bool b => [if b then 0xf5 else 0xf4]
  | .null => [0xf6]
  | .undefined => [0xf7]
  | .array items => shortestHead MT_ARRAY items.length ++ items.flatMap encodeCbor
  | .map entries =>
    shortestHead MT_MAP entries.length ++ entries.flatMap fun e => encodeKey e.1 ++ encodeCbor e.2
decreasing_by exacts [sizeOf_item_lt ‹_›, sizeOf_entry_lt ‹_›]

/-- How many items there are in a value: itself, the items of arrays, and the keys and values of maps. -/
def itemCount : CborValue → ℕ
  | .array items => 1 + (items.map itemCount).sum
  | .map entries => 1 + (entries.map fun e => 1 + itemCount e.2).sum
  | _ => 1
decreasing_by exacts [sizeOf_item_lt ‹_›, sizeOf_entry_lt ‹_›]

/-- How deep the deepest item of a value lies in it. -/
def nesting : CborValue → ℕ
  | .array items => (items.map fun v => nesting v + 1).foldr max 0
  | .map entries => (entries.map fun e => nesting e.2 + 1).foldr max 0
  | _ => 0
decreasing_by exacts [sizeOf_item_lt ‹_›, sizeOf_entry_lt ‹_›]

/-- A key with its text rewritten. -/
def CborKey.mapText (f : String → String) : CborKey → CborKey
  | .text s => .text (f s)
  | .number n => .number n

/-- A value with its texts rewritten. -/
def CborValue.mapText (f : String → String) : CborValue → CborValue
  | .number n => .number n
  | .bigint n => .bigint n
  | .text s => .text (f s)
  | .bytes b => .bytes b
  | .bool b => .bool b
  | .null => .null
  | .undefined => .undefined
  | .array items => .array (items.map (mapText f))
  | .map entries => .map (entries.map fun e => (e.1.mapText f, mapText f e.2))
decreasing_by exacts [sizeOf_item_lt ‹_›, sizeOf_entry_lt ‹_›]

/-- A value with its bigints as numbers: what is left of it when these are compared by value. -/
def byValue : CborValue → CborValue
  | .number n => .number n
  | .bigint n => .number n
  | .text s => .text s
  | .bytes b => .bytes b
  | .bool b => .bool b
  | .null => .null
  | .undefined => .undefined
  | .array items => .array (items.map byValue)
  | .map entries => .map (entries.map fun e => (e.1, byValue e.2))
decreasing_by exacts [sizeOf_item_lt ‹_›, sizeOf_entry_lt ‹_›]

/-- The integers that are numbers. -/
def SmallInteger (n : ℤ) : Prop := -2 ^ 53 ≤ n ∧ n < 2 ^ 53

/-- The integers of 64 bits that are bigints. -/
def BigInteger (n : ℤ) : Prop := ¬SmallInteger n ∧ -2 ^ 64 ≤ n ∧ n < 2 ^ 64

/-- The keys of the supported subset. -/
def CborKey.Supported : CborKey → Prop
  | .text _ => True
  | .number n => SmallInteger n

/-- The values of the supported subset. -/
inductive Supported : CborValue → Prop
  | number {n : ℤ} (h : SmallInteger n) : Supported (.number n)
  | bigint {n : ℤ} (h : BigInteger n) : Supported (.bigint n)
  | text (s : String) : Supported (.text s)
  | bytes (b : Bytes) : Supported (.bytes b)
  | bool (b : Bool) : Supported (.bool b)
  | null : Supported .null
  | undefined : Supported .undefined
  | array {items : List CborValue} (h : ∀ v ∈ items, Supported v) : Supported (.array items)
  | map {entries : List (CborKey × CborValue)} (hkeys : ∀ e ∈ entries, e.1.Supported)
      (hdistinct : (entries.map Prod.fst).Nodup) (h : ∀ e ∈ entries, Supported e.2) :
      Supported (.map entries)

/-- No text of the value begins with a byte-order mark. -/
inductive Unmarked : CborValue → Prop
  | number (n : ℤ) : Unmarked (.number n)
  | bigint (n : ℤ) : Unmarked (.bigint n)
  | text {s : String} (h : marked s = false) : Unmarked (.text s)
  | bytes (b : Bytes) : Unmarked (.bytes b)
  | bool (b : Bool) : Unmarked (.bool b)
  | null : Unmarked .null
  | undefined : Unmarked .undefined
  | array {items : List CborValue} (h : ∀ v ∈ items, Unmarked v) : Unmarked (.array items)
  | map {entries : List (CborKey × CborValue)}
      (hkeys : ∀ e ∈ entries, ∀ s, e.1 = .text s → marked s = false)
      (h : ∀ e ∈ entries, Unmarked e.2) : Unmarked (.map entries)

/-- The value is within the limits. -/
structure Fits (limits : CborLimits) (v : CborValue) : Prop where
  /-- In its shortest form. -/
  bytes : ((encodeCbor v).length : ℤ) ≤ limits.maxBytes
  /-- In its items. -/
  items : (itemCount v : ℤ) ≤ limits.maxItems
  /-- In its nesting. -/
  depth : (nesting v : ℤ) ≤ limits.maxDepth

end SdidBridge.Attestation
