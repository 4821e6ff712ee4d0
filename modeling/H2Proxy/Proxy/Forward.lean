import H2Proxy.Service

/-
  What a request head goes through on its way to a backend (`sanitize` and `add_forwarded`
  in `core/src/proxy.rs`).
-/

namespace H2Proxy

/-! ## `String::from_utf8_lossy` -/

/-- Where the decoder is: the octets of an unfinished character, the range its next octet
    must be in, and how many octets are missing. -/
structure Utf8Lossy where
  held : Bytes
  low : UInt8
  high : UInt8
  missing : Nat

namespace Utf8Lossy

/-- U+FFFD, in place of every ill-formed sequence. -/
def replacement : Bytes := [0xef, 0xbf, 0xbd]

def idle : Utf8Lossy := ⟨[], 0x80, 0xbf, 0⟩

/-- The first octet of a character: what it settles, and what is still to come. -/
def begin_ (b : UInt8) : Bytes × Utf8Lossy :=
  if b < 0x80 then ([b], idle)
  else if 0xc2 ≤ b && b ≤ 0xdf then ([], ⟨[b], 0x80, 0xbf, 1⟩)
  else if b = 0xe0 then ([], ⟨[b], 0xa0, 0xbf, 2⟩)
  else if b = 0xed then ([], ⟨[b], 0x80, 0x9f, 2⟩)
  else if 0xe1 ≤ b && b ≤ 0xef then ([], ⟨[b], 0x80, 0xbf, 2⟩)
  else if b = 0xf0 then ([], ⟨[b], 0x90, 0xbf, 3⟩)
  else if 0xf1 ≤ b && b ≤ 0xf3 then ([], ⟨[b], 0x80, 0xbf, 3⟩)
  else if b = 0xf4 then ([], ⟨[b], 0x80, 0x8f, 3⟩)
  else (replacement, idle)

def next (d : Utf8Lossy) (b : UInt8) : Bytes × Utf8Lossy :=
  if d.missing = 0 then begin_ b
  else if d.low ≤ b && b ≤ d.high then
    if d.missing = 1 then (d.held ++ [b], idle)
    else ([], ⟨d.held ++ [b], 0x80, 0xbf, d.missing - 1⟩)
  else
    -- The octet does not go on; it may begin a character of its own.
    let (out, d) := begin_ b
    (replacement ++ out, d)

def run (d : Utf8Lossy) : Bytes → Bytes
  | [] => if d.missing = 0 then [] else replacement
  | b :: bs =>
    let (out, d) := d.next b
    out ++ run d bs

end Utf8Lossy

def fromUtf8Lossy (bytes : Bytes) : Bytes := Utf8Lossy.idle.run bytes

/-! ## The head -/

def xForwardedFor : Bytes := ascii "x-forwarded-for"
def xForwardedProto : Bytes := ascii "x-forwarded-proto"

/-- Drop what describes the client's hop. -/
def sanitize (head : RequestHead) : RequestHead :=
  { head with fields := head.fields.filter fun f => f.name ≠ ascii "te" }

/-- Tell the backend who the client is. `peer` is its address as it is written. -/
def addForwarded (peer : Option Bytes) (trustForwarded : Bool) (head : RequestHead) :
    RequestHead :=
  match peer with
  | none => head
  | some peer =>
    let existing :=
      if trustForwarded then
        (head.fields.find? fun f => f.name = xForwardedFor).map (·.value)
      else none
    let fields := head.fields.filter fun f => f.name ≠ xForwardedFor && f.name ≠ xForwardedProto
    let value := match existing with
      | some chain => fromUtf8Lossy chain ++ ascii ", " ++ peer
      | none => peer
    { head with
      fields := fields ++
        [.new xForwardedFor value, .new xForwardedProto (ascii "https")] }

end H2Proxy
