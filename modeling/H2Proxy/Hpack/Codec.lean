import H2Proxy.Hpack.Huffman
import H2Proxy.Hpack.StaticTable

/-
  HPACK (`core/src/hpack.rs`): integers, strings, the dynamic table, the decoder and the
  encoder.

  The source's cursor is the octets that are left. Every reader consumes at least the octet
  it looks at, so the length of the block is fuel enough for the decoding loop.
-/

namespace H2Proxy

/-- Per-entry overhead in the dynamic table's size accounting. -/
def entryOverhead : Nat := 32

/-- A decoded header field. `sensitive` asks for the never-indexed representation. -/
structure Header where
  name : Bytes
  value : Bytes
  sensitive : Bool
deriving DecidableEq

namespace Header

def new (name value : Bytes) : Header := ⟨name, value, false⟩

/-- This field's cost against `SETTINGS_MAX_HEADER_LIST_SIZE`. -/
def listSize (h : Header) : Nat := h.name.length + h.value.length + entryOverhead

end Header

inductive HpackError
  | compression (msg : String)
  | headerListTooLarge (size limit : Nat)
deriving DecidableEq

namespace HpackError

def text : HpackError → String
  | compression msg => s!"HPACK compression error: {msg}"
  | headerListTooLarge size limit =>
    s!"header list of {size} octets exceeds the {limit}-octet limit"

/-- The `From<HpackError> for ConnectionError` conversion. -/
def toConnectionError (e : HpackError) : ConnectionError :=
  ⟨match e with
    | compression _ => .compressionError
    | headerListTooLarge .. => .enhanceYourCalm, e.text⟩

end HpackError

namespace Hpack

/-! ## Integers and strings -/

def nextByte : Bytes → Except HpackError (UInt8 × Bytes)
  | [] => .error (.compression "block ended mid-representation")
  | b :: rest => .ok (b, rest)

def take (len : Nat) (cur : Bytes) : Except HpackError (Bytes × Bytes) :=
  if len ≤ cur.length then .ok (cur.take len, cur.drop len)
  else .error (.compression s!"string of {len} octets runs past the end of the block")

/-- The continuation octets of an integer, from the given shift; `fuel` is the shifts left
    before the run is too long. -/
def decodeIntFrom (value shift : Nat) : Nat → Bytes → Except HpackError (Nat × Bytes)
  | 0, _ => .error (.compression "integer continuation is too long")
  | fuel + 1, cur => do
    let (byte, cur) ← nextByte cur
    let value := value + (byte.toNat % 2 ^ 7) <<< shift
    if value > u32Max then .error (.compression "integer overflows 32 bits")
    else if byte.toNat < 2 ^ 7 then .ok (value, cur)
    else decodeIntFrom value (shift + 7) fuel cur

/-- Decode an integer whose `prefixBits` low bits are already in `first`. The shifts run
    over 0, 7, 14, 21 and 28. -/
def decodeInt (first : UInt8) (prefixBits : Nat) (cur : Bytes) : Except HpackError (Nat × Bytes) :=
  let mask := 2 ^ prefixBits - 1
  let value := first.toNat % 2 ^ prefixBits
  if value < mask then .ok (value, cur)
  else decodeIntFrom value 0 5 cur

/-- The octets of `rest` in groups of seven bits, least significant first. A `usize` has at
    most ten groups, and `fuel` counts those after the first. -/
def encodeIntRest : Nat → Nat → Bytes
  | 0, rest => [UInt8.ofNat rest]
  | fuel + 1, rest =>
    if rest ≥ 0x80 then UInt8.ofNat (rest % 2 ^ 7 + 0x80) :: encodeIntRest fuel (rest >>> 7)
    else [UInt8.ofNat rest]

/-- Encode `value` into `prefixBits` low bits under `highBits`. -/
def encodeInt (value prefixBits : Nat) (highBits : UInt8) : Bytes :=
  let mask := 2 ^ prefixBits - 1
  if value < mask then [highBits ||| UInt8.ofNat value]
  else (highBits ||| UInt8.ofNat mask) :: encodeIntRest 9 (value - mask)

def decodeString (cur : Bytes) : Except HpackError (Bytes × Bytes) := do
  let (first, cur) ← nextByte cur
  let (len, cur) ← decodeInt first 7 cur
  let (raw, cur) ← take len cur
  if first &&& 0x80 ≠ 0 then
    match Huffman.decode raw with
    | .ok s => .ok (s, cur)
    | .error msg => .error (.compression msg)
  else .ok (raw, cur)

/-- Encode a string literal, Huffman-coded whenever that does not make it longer. -/
def encodeString (s : Bytes) (huffmanAllowed : Bool) : Bytes :=
  let codedLen := Huffman.encodedLen s
  if huffmanAllowed && codedLen ≤ s.length then encodeInt codedLen 7 0x80 ++ Huffman.encode s
  else encodeInt s.length 7 0x00 ++ s

/-! ## The dynamic table -/

/-- A FIFO of recently sent fields, newest first, bounded by an octet budget. -/
structure DynamicTable where
  entries : List (Bytes × Bytes)
  size : Nat
  maxSize : Nat
deriving DecidableEq

namespace DynamicTable

def new (maxSize : Nat) : DynamicTable := ⟨[], 0, maxSize⟩

def cost (e : Bytes × Bytes) : Nat := e.1.length + e.2.length + entryOverhead

/-- Drop the oldest entries, last in the list, until `size ≤ target`. The recursion is on the
    number of entries: an empty table has size zero, so the source's `expect` holds. -/
def evict (target : Nat) : Nat → List (Bytes × Bytes) → Nat → List (Bytes × Bytes) × Nat
  | 0, entries, size => (entries, size)
  | n + 1, entries, size =>
    if size > target then
      match entries.getLast? with
      | some e => evict target n entries.dropLast (size - cost e)
      | none => (entries, size)
    else (entries, size)

def evictTo (t : DynamicTable) (target : Nat) : DynamicTable :=
  let (entries, size) := evict target t.entries.length t.entries t.size
  { t with entries, size }

/-- Add a field, evicting until it fits. One larger than the whole table empties it and is
    not stored. -/
def insert (t : DynamicTable) (name value : Bytes) : DynamicTable :=
  let t' := t.evictTo (t.maxSize - cost (name, value))
  if cost (name, value) > t.maxSize then t'
  else { t' with entries := (name, value) :: t'.entries, size := t'.size + cost (name, value) }

def setMaxSize (t : DynamicTable) (maxSize : Nat) : DynamicTable :=
  { t with maxSize }.evictTo maxSize

end DynamicTable

/-- Resolve a wire index across the static and dynamic tables. -/
def lookup (table : DynamicTable) (index : Nat) : Except HpackError (Bytes × Bytes) :=
  if index = 0 then .error (.compression "index 0 is not a valid table entry")
  else if index ≤ StaticTable.len then
    match StaticTable.get index with
    | some e => .ok e
    | none => .error (.compression "bad static index")
  else
    match table.entries[index - StaticTable.len - 1]? with
    | some e => .ok e
    | none => .error (.compression
        s!"index {index} is past the end of the dynamic table ({table.entries.length} entries)")

/-- The best table entry for a field. -/
inductive Match
  | full (index : Nat)
  | name (index : Nat)
  | none
deriving DecidableEq

/-- Scan `entries`, whose first has wire index `index`, with the first name-only match so
    far. -/
def findIn (name value : Bytes) (index : Nat) (nameOnly : Option Nat) :
    List (Bytes × Bytes) → Nat ⊕ Option Nat
  | [] => .inr nameOnly
  | (n, v) :: entries =>
    if n = name then
      if v = value then .inl index
      else findIn name value (index + 1) (nameOnly.or (some index)) entries
    else findIn name value (index + 1) nameOnly entries

/-- Find the lowest-indexed match, a full one before a name-only one and the static table
    before the dynamic. -/
def find (table : DynamicTable) (name value : Bytes) : Match :=
  let static := StaticTable.entries.map fun e => (ascii e.1, ascii e.2)
  match findIn name value 1 none (static ++ table.entries) with
  | .inl index => .full index
  | .inr (some index) => .name index
  | .inr none => .none

end Hpack

open Hpack

/-! ## The decoder -/

structure HpackDecoder where
  table : DynamicTable
  /-- The `SETTINGS_HEADER_TABLE_SIZE` we advertised. -/
  capacity : Nat
  maxHeaderListSize : Option Nat
deriving DecidableEq

namespace HpackDecoder

def new (maxTableSize : Nat) (maxHeaderListSize : Option Nat) : HpackDecoder :=
  ⟨.new maxTableSize, maxTableSize, maxHeaderListSize⟩

/-- A literal representation: an optional name index, then the strings. -/
def literal (table : DynamicTable) (first : UInt8) (prefixBits : Nat) (cur : Bytes)
    (sensitive : Bool) : Except HpackError (Header × Bytes) := do
  let (index, cur) ← decodeInt first prefixBits cur
  let (name, cur) ←
    if index = 0 then decodeString cur
    else do
      let e ← lookup table index
      .ok (e.1, cur)
  let (value, cur) ← decodeString cur
  .ok (⟨name, value, sensitive⟩, cur)

/-- One representation: the table after it, the field (none for a size update) and the
    octets left. An error leaves the table as the source does: untouched. -/
def representation (d : HpackDecoder) (sizeUpdateAllowed : Bool) (cur : Bytes) :
    Except HpackError (DynamicTable × Option Header × Bytes) := do
  let (first, cur) ← nextByte cur
  if first &&& 0x80 ≠ 0 then
    let (index, cur) ← decodeInt first 7 cur
    let (name, value) ← lookup d.table index
    .ok (d.table, some (.new name value), cur)
  else if first &&& 0xc0 = 0x40 then
    let (header, cur) ← literal d.table first 6 cur false
    .ok (d.table.insert header.name header.value, some header, cur)
  else if first &&& 0xe0 = 0x20 then
    if !sizeUpdateAllowed then
      .error (.compression "dynamic table size update after a header field")
    else
      let (size, cur) ← decodeInt first 5 cur
      if size > d.capacity then
        .error (.compression (s!"dynamic table size update to {size} exceeds the advertised " ++
          s!"maximum of {d.capacity}"))
      else .ok (d.table.setMaxSize size, none, cur)
  else if first &&& 0xf0 = 0x10 then
    let (header, cur) ← literal d.table first 4 cur true
    .ok (d.table, some header, cur)
  else
    let (header, cur) ← literal d.table first 4 cur false
    .ok (d.table, some header, cur)

/-- What the decoding loop carries. -/
structure Progress where
  headers : List Header
  listSize : Nat
  oversized : Option Nat
  sizeUpdateAllowed : Bool

def Progress.start : Progress := ⟨[], 0, none, true⟩

/-- Account for one decoded field; past the limit the list is dropped, the decoding goes on. -/
def Progress.field (p : Progress) (limit : Option Nat) (header : Header) : Progress :=
  let listSize := p.listSize + header.listSize
  match limit with
  | some limit =>
    if listSize > limit then ⟨[], listSize, p.oversized.or (some limit), false⟩
    else ⟨p.headers ++ [header], listSize, p.oversized, false⟩
  | none => ⟨p.headers ++ [header], listSize, p.oversized, false⟩

def decodeLoop : Nat → HpackDecoder → Progress → Bytes → HpackDecoder × Except HpackError Progress
  | 0, d, p, _ => (d, .ok p)
  | fuel + 1, d, p, cur =>
    if cur = [] then (d, .ok p)
    else
      match d.representation p.sizeUpdateAllowed cur with
      | .error e => (d, .error e)
      | .ok (table, none, cur) => decodeLoop fuel { d with table } p cur
      | .ok (table, some header, cur) =>
        decodeLoop fuel { d with table } (p.field d.maxHeaderListSize header) cur

/-- Decode `block` into a header list. -/
def decode (d : HpackDecoder) (block : Bytes) : HpackDecoder × Except HpackError (List Header) :=
  let (d, r) := decodeLoop block.length d .start block
  (d, r.bind fun p =>
    match p.oversized with
    | some limit => .error (.headerListTooLarge p.listSize limit)
    | none => .ok p.headers)

end HpackDecoder

/-! ## The encoder -/

structure HpackEncoder where
  table : DynamicTable
  /-- A size update to emit before the next block. -/
  pendingSizeUpdate : Option Nat
  huffman : Bool
deriving DecidableEq

namespace HpackEncoder

def new (maxTableSize : Nat) : HpackEncoder := ⟨.new maxTableSize, none, true⟩

def setHuffman (e : HpackEncoder) (on : Bool) : HpackEncoder := { e with huffman := on }

/-- Adopt a new table bound after the peer's SETTINGS change it. -/
def setMaxTableSize (e : HpackEncoder) (maxTableSize : Nat) : HpackEncoder :=
  if maxTableSize ≠ e.table.maxSize then
    { e with table := e.table.setMaxSize maxTableSize, pendingSizeUpdate := some maxTableSize }
  else e

def encodeOne (e : HpackEncoder) (h : Header) : HpackEncoder × Bytes :=
  let value := encodeString h.value e.huffman
  if h.sensitive then
    (e, (match find e.table h.name h.value with
      | .full i | .name i => encodeInt i 4 0x10
      | .none => 0x10 :: encodeString h.name e.huffman) ++ value)
  else
    match find e.table h.name h.value with
    | .full i => (e, encodeInt i 7 0x80)
    | .name i =>
      ({ e with table := e.table.insert h.name h.value }, encodeInt i 6 0x40 ++ value)
    | .none =>
      ({ e with table := e.table.insert h.name h.value },
        0x40 :: encodeString h.name e.huffman ++ value)

def encodeAll (e : HpackEncoder) : List Header → HpackEncoder × Bytes
  | [] => (e, [])
  | h :: hs =>
    let (e, octets) := e.encodeOne h
    let (e, rest) := e.encodeAll hs
    (e, octets ++ rest)

/-- Encode a header list as one block. -/
def encode (e : HpackEncoder) (headers : List Header) : HpackEncoder × Bytes :=
  let update := match e.pendingSizeUpdate with
    | some size => encodeInt size 5 0x20
    | none => []
  let (e, octets) := { e with pendingSizeUpdate := none }.encodeAll headers
  (e, update ++ octets)

end HpackEncoder

end H2Proxy
