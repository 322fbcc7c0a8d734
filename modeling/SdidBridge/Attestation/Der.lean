import SdidBridge.Attestation.Cbor
import SdidBridge.Codec.Layout

/-!
# The DER reader

`der.ts` of the attestation package: the class `DerReader`, whose `nodes` are the count of its cursor, and
the encoder `encodeDer` that it is compared with, which the package does not have.
-/

namespace SdidBridge.Attestation

open Codec

/-! ## Nodes, limits and errors -/

/-- A `DerTagClass`. -/
inductive DerTagClass where
  | universal
  | application
  | context
  /-- The class `private`. -/
  | privateUse
  deriving DecidableEq

/-- A `DerNode`. -/
inductive DerNode where
  | mk (tagClass : DerTagClass) (constructed : Bool) (tagNumber : ℕ) (content : Bytes)
    (children : List DerNode)

namespace DerNode

/-- The class of the tag. -/
def tagClass : DerNode → DerTagClass
  | mk tagClass _ _ _ _ => tagClass

/-- Whether the content is made of nodes. -/
def constructed : DerNode → Bool
  | mk _ constructed _ _ _ => constructed

/-- The tag number within the class. -/
def tagNumber : DerNode → ℕ
  | mk _ _ tagNumber _ _ => tagNumber

/-- The content octets. -/
def content : DerNode → Bytes
  | mk _ _ _ content _ => content

/-- The nodes of the content; none for primitive nodes. -/
def children : DerNode → List DerNode
  | mk _ _ _ _ children => children

end DerNode

/-- The limits of a reader. A fractional limit of the source acts as its floor. -/
structure DerLimits where
  /-- Nesting of nodes. -/
  maxDepth : ℤ
  /-- Nodes. -/
  maxNodes : ℤ
  /-- Bytes of the input. -/
  maxBytes : ℤ

/-- The default limits. -/
def DEFAULT_DER_LIMITS : DerLimits where
  maxDepth := 24
  maxNodes := 4096
  maxBytes := 64 * 1024

/-- `Partial<DerLimits>`. -/
structure PartialDerLimits where
  /-- Nesting of nodes. -/
  maxDepth : Option ℤ
  /-- Nodes. -/
  maxNodes : Option ℤ
  /-- Bytes of the input. -/
  maxBytes : Option ℤ

/-- `{ ...DEFAULT_DER_LIMITS, ...limits }`. -/
def PartialDerLimits.effective (limits : PartialDerLimits) : DerLimits where
  maxDepth := limits.maxDepth.getD DEFAULT_DER_LIMITS.maxDepth
  maxNodes := limits.maxNodes.getD DEFAULT_DER_LIMITS.maxNodes
  maxBytes := limits.maxBytes.getD DEFAULT_DER_LIMITS.maxBytes

/-- A `DerError`. -/
structure DerError where
  /-- Its message. -/
  message : String
  deriving DecidableEq

/-- `new DerError(message)`. -/
def derError (message : String) : DerError := ⟨"der: " ++ message⟩

/-! ## The reader -/

/-- The methods of `DerReader`. -/
abbrev DerReader := Reader DerError

/-- `byte`. -/
def derByte : DerReader UInt8 := Reader.byte (derError "unexpected end of input")

/-- The loop of `readTagNumber`, with `octets` octets read to the number `value`. It makes at most `turns`
turns; the fault after them is not met (`safe_readTagOctets`). -/
def readTagOctets : ℕ → ℕ → ℕ → DerReader ℕ
  | 0, _, _ => fun _ => .error .fault
  | turns + 1, octets, value => do
    let b ← derByte
    Reader.require (¬(octets = 0 ∧ b = 0x80)) (derError "non-minimal high tag number")
    let value := value * 128 + (b.toNat &&& 0x7f)
    Reader.require (value ≤ 0x0fffffff) (derError "tag number too large")
    if b.toNat &&& 0x80 = 0 then pure value
    else do
      Reader.require (octets + 1 ≤ 4) (derError "tag number too long")
      readTagOctets turns (octets + 1) value

/-- `readTagNumber`. -/
def readTagNumber (first : UInt8) : DerReader ℕ :=
  if first.toNat &&& 0x1f ≠ 0x1f then pure (first.toNat &&& 0x1f)
  else do
    let value ← readTagOctets 5 0 0
    Reader.require (0x1f ≤ value) (derError "high tag number should have used the short form")
    pure value

/-- `readLength`. -/
def readLength : DerReader ℕ := do
  let first ← derByte
  Reader.require (first ≠ 0x80) (derError "indefinite length is not valid DER")
  if first < 0x80 then pure first.toNat
  else do
    let count := first.toNat &&& 0x7f
    Reader.require (count ≤ 4) (derError "length field too long")
    let bytes ← Reader.times derByte count
    Reader.require (bytes.head? ≠ some 0x00) (derError "non-minimal length encoding (leading zero)")
    let value : ℕ := bytes.foldl (fun value b => value * 256 + b.toNat) 0
    Reader.require (0x80 ≤ value) (derError "non-minimal length encoding (short form available)")
    pure value

/-- `TAG_CLASSES`. -/
def TAG_CLASSES : ℕ → DerTagClass
  | 0 => .universal
  | 1 => .application
  | 2 => .context
  | _ => .privateUse

/-- The children of a node, with `item` for the calls one level down. They are read over the content alone,
and their nodes are counted on from those before. -/
def readChildren (item : DerReader DerNode) (constructed : Bool) (content : Bytes) : DerReader (List DerNode) :=
  if constructed then Reader.within content (Reader.untilEnd item content.length) else pure []

/-- What `readNode` reads after the identifier. -/
def readContent (item : DerReader DerNode) (tagClass : DerTagClass) (constructed : Bool) (tagNumber : ℕ) :
    DerReader DerNode := do
  let length ← readLength
  let content ← Reader.bytes length fun left =>
    derError s!"declared length {length} exceeds {left} byte(s) remaining"
  let children ← readChildren item constructed content
  pure (.mk tagClass constructed tagNumber content children)

/-- `readNode`. Its depth is `maxDepth + 1 - levels`, so that it is too great when no level is left. -/
def readNode (limits : DerLimits) : ℕ → DerReader DerNode
  | 0 => Reader.raise (derError s!"nesting deeper than {limits.maxDepth}")
  | levels + 1 => do
    Reader.tally limits.maxNodes (derError s!"more than {limits.maxNodes} elements")
    let identifier ← derByte
    let tagClass := TAG_CLASSES (identifier.toNat >>> 6 &&& 0x03)
    let constructed := decide (identifier.toNat &&& 0x20 ≠ 0)
    let tagNumber ← readTagNumber identifier
    readContent (readNode limits levels) tagClass constructed tagNumber

/-- `requireEnd`. -/
def derRequireEnd : DerReader Unit := do
  let left ← Reader.remaining
  Reader.require (left = 0) (derError s!"{left} trailing byte(s) after top-level element")

/-- The element of a whole input. -/
def readElement (limits : DerLimits) : DerReader DerNode := do
  let node ← readNode limits (limits.maxDepth + 1).toNat
  derRequireEnd
  pure node

/-- `parseDer`. -/
def parseDer (input : Uint8Array) (limits : PartialDerLimits) : Except (Failure DerError) DerNode :=
  if (input.bytes.length : ℤ) > limits.effective.maxBytes then
    .error (.raised
      (derError s!"input of {input.bytes.length} bytes exceeds limit {limits.effective.maxBytes}"))
  else Reader.run (readElement limits.effective) input.bytes

/-! ## The encoding -/

/-- The bits of a class in an identifier. -/
def classBits : DerTagClass → ℕ
  | .universal => 0
  | .application => 1
  | .context => 2
  | .privateUse => 3

/-- The first identifier octet, with `low` in the bits of the tag number. -/
def identifierOctet (tagClass : DerTagClass) (constructed : Bool) (low : ℕ) : UInt8 :=
  UInt8.ofNat (classBits tagClass * 64 + (if constructed then 32 else 0) + low)

/-- The identifier, with the tag number in its minimal form. -/
def encodeIdentifier (tagClass : DerTagClass) (constructed : Bool) (tagNumber : ℕ) : Bytes :=
  if tagNumber < 31 then [identifierOctet tagClass constructed tagNumber]
  else identifierOctet tagClass constructed 31 :: varint tagNumber

/-- A length in its minimal form. -/
def encodeLength (n : ℕ) : Bytes :=
  if n < 128 then [UInt8.ofNat n]
  else if n < 256 then 0x81 :: beBytes 1 n
  else if n < 256 ^ 2 then 0x82 :: beBytes 2 n
  else if n < 256 ^ 3 then 0x83 :: beBytes 3 n
  else 0x84 :: beBytes 4 n

/-- A node: its identifier, the length of its content, and the content. -/
def encodeDer (node : DerNode) : Bytes :=
  encodeIdentifier node.tagClass node.constructed node.tagNumber ++ encodeLength node.content.length ++
    node.content

/-- A tree whose numbers the encoding has room for, and in which the content of a constructed node is that
of its children, one after another, while a primitive node has none. -/
inductive DerNode.WellFormed : DerNode → Prop
  | primitive {tagClass : DerTagClass} {tagNumber : ℕ} {content : Bytes} (htag : tagNumber ≤ 0x0fffffff)
      (hlength : content.length < 2 ^ 32) : WellFormed (.mk tagClass false tagNumber content [])
  | constructed {tagClass : DerTagClass} {tagNumber : ℕ} {content : Bytes} {children : List DerNode}
      (htag : tagNumber ≤ 0x0fffffff) (hlength : content.length < 2 ^ 32)
      (hcontent : content = children.flatMap encodeDer) (h : ∀ child ∈ children, WellFormed child) :
      WellFormed (.mk tagClass true tagNumber content children)

theorem sizeOf_child_lt {tagClass : DerTagClass} {constructed : Bool} {tagNumber : ℕ} {content : Bytes}
    {children : List DerNode} {child : DerNode} (h : child ∈ children) :
    sizeOf child < sizeOf (DerNode.mk tagClass constructed tagNumber content children) := by
  have hlt := List.sizeOf_lt_of_mem h
  simp only [DerNode.mk.sizeOf_spec]
  omega

/-- How many nodes a tree has. -/
def nodeCount : DerNode → ℕ
  | .mk _ _ _ _ children => 1 + (children.map nodeCount).sum
decreasing_by exact sizeOf_child_lt ‹_›

/-- How deep the deepest node of a tree lies in it. -/
def nodeDepth : DerNode → ℕ
  | .mk _ _ _ _ children => (children.map fun child => nodeDepth child + 1).foldr max 0
decreasing_by exact sizeOf_child_lt ‹_›

/-- The tree is within the limits. -/
structure DerFits (limits : DerLimits) (node : DerNode) : Prop where
  /-- In its encoding. -/
  bytes : ((encodeDer node).length : ℤ) ≤ limits.maxBytes
  /-- In its nodes. -/
  nodes : (nodeCount node : ℤ) ≤ limits.maxNodes
  /-- In its depth. -/
  depth : (nodeDepth node : ℤ) ≤ limits.maxDepth

end SdidBridge.Attestation
