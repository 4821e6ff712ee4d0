import Mathlib.Algebra.Ring.Int.Defs
import Mathlib.Algebra.Ring.Nat
import Mathlib.Order.Basic
import Mathlib.Data.Nat.Init

/-
  The vocabulary shared by both engines: octets, clocks, stream ids, error codes and the
  two scopes of error (`core/src/stream.rs`, `core/src/conn.rs`).
-/

namespace H2Proxy

abbrev Bytes := List UInt8

/-- The octets of an ASCII text. -/
def ascii (s : String) : Bytes := s.toList.map fun c => UInt8.ofNat c.toNat

/-- A point in time, in nanoseconds from an arbitrary origin. -/
abbrev Instant := Nat

/-- A span of time, in nanoseconds. -/
abbrev Duration := Nat

/-- `u32::MAX`. -/
def u32Max : Nat := 2 ^ 32 - 1

/-- `a.saturating_add(b)` on `u32`. -/
def satAdd32 (a b : Nat) : Nat := min (a + b) u32Max

/-- `u64::MAX`. -/
def u64Max : Nat := 2 ^ 64 - 1

/-- `a.saturating_add(b)` on `u64`. -/
def satAdd64 (a b : Nat) : Nat := min (a + b) u64Max

/-- `n as i32` on a `u32`. -/
def asI32 (n : Nat) : Int := if n < 2 ^ 31 then n else n - 2 ^ 32

theorem asI32_bounds {n : Nat} (h : n < 2 ^ 32) : -(2 ^ 31) ≤ asI32 n ∧ asI32 n ≤ 2 ^ 31 - 1 := by
  unfold asI32
  split <;> omega

theorem satAdd32_eq {a b : Nat} (h : a + b ≤ u32Max) : satAdd32 a b = a + b :=
  Nat.min_eq_left h

theorem satAdd32_le (a b : Nat) : satAdd32 a b ≤ a + b := Nat.min_le_left _ _

/-! ## Stream ids -/

/-- A stream identifier: 31 significant bits. -/
structure StreamId where
  get : Nat
  lt : get < 2 ^ 31
deriving DecidableEq

/-- The last odd id an initiator can use before the 31-bit space runs out. -/
def maxLocalStreamId : Nat := 0x7fffffff

namespace StreamId

/-- Build an id from a 32-bit wire value, masking off the reserved high bit. -/
def new (raw : Nat) : StreamId := ⟨raw % 2 ^ 31, Nat.mod_lt _ (by decide)⟩

/-- The connection control stream. -/
def connection : StreamId := ⟨0, by decide⟩

def isConnection (id : StreamId) : Bool := id.get == 0

/-- Client-initiated streams are the nonzero odd ids. -/
def isClientInitiated (id : StreamId) : Bool := id.get != 0 && id.get % 2 == 1

instance : LE StreamId := ⟨fun a b => a.get ≤ b.get⟩
instance : LT StreamId := ⟨fun a b => a.get < b.get⟩
instance (a b : StreamId) : Decidable (a ≤ b) := inferInstanceAs (Decidable (a.get ≤ b.get))
instance (a b : StreamId) : Decidable (a < b) := inferInstanceAs (Decidable (a.get < b.get))

theorem le_def {a b : StreamId} : a ≤ b ↔ a.get ≤ b.get := Iff.rfl
theorem lt_def {a b : StreamId} : a < b ↔ a.get < b.get := Iff.rfl

theorem ext_get {a b : StreamId} (h : a.get = b.get) : a = b := by
  cases a; cases b; simp_all

/-- `a.max(b)` on stream ids. -/
def max (a b : StreamId) : StreamId := if a ≤ b then b else a

theorem le_max_iff {a b c : StreamId} : a ≤ b.max c ↔ a ≤ b ∨ a ≤ c := by
  unfold max; split <;> rename_i h <;> simp only [le_def] at h ⊢ <;> omega

end StreamId

/-! ## Error codes -/

/-- HTTP/2 error codes, shared by GOAWAY and RST_STREAM. -/
inductive ErrorCode
  | noError | protocolError | internalError | flowControlError | settingsTimeout
  | streamClosed | frameSizeError | refusedStream | cancel | compressionError
  | connectError | enhanceYourCalm | inadequateSecurity | http11Required
deriving DecidableEq

namespace ErrorCode

/-- The on-wire 32-bit value. -/
def asU32 : ErrorCode → Nat
  | noError => 0x0
  | protocolError => 0x1
  | internalError => 0x2
  | flowControlError => 0x3
  | settingsTimeout => 0x4
  | streamClosed => 0x5
  | frameSizeError => 0x6
  | refusedStream => 0x7
  | cancel => 0x8
  | compressionError => 0x9
  | connectError => 0xa
  | enhanceYourCalm => 0xb
  | inadequateSecurity => 0xc
  | http11Required => 0xd

/-- Decode a wire value; unknown codes are `INTERNAL_ERROR`. -/
def fromU32 : Nat → ErrorCode
  | 0x0 => noError
  | 0x1 => protocolError
  | 0x2 => internalError
  | 0x3 => flowControlError
  | 0x4 => settingsTimeout
  | 0x5 => streamClosed
  | 0x6 => frameSizeError
  | 0x7 => refusedStream
  | 0x8 => cancel
  | 0x9 => compressionError
  | 0xa => connectError
  | 0xb => enhanceYourCalm
  | 0xc => inadequateSecurity
  | 0xd => http11Required
  | _ => internalError

theorem fromU32_asU32 (c : ErrorCode) : fromU32 c.asU32 = c := by
  cases c <;> rfl

end ErrorCode

/-- A connection-level error: GOAWAY with `code`, the connection dies. `debug` becomes the
    GOAWAY debug data. -/
structure ConnectionError where
  code : ErrorCode
  debug : String

/-- A stream-level error: RST_STREAM with `code`, the connection lives. -/
structure StreamError where
  stream : StreamId
  code : ErrorCode
deriving DecidableEq

/-! ## Loops -/

/-- Whether a connection's loop goes on. -/
inductive Next
  | continue_ | close
deriving DecidableEq

/-- Why the loop stopped. -/
inductive Stop
  | quiet
  | failed (error : ConnectionError)

/-- What becomes of a connection after a turn of its loop. -/
def concluded {σ : Type} (conclude : Stop → σ → σ) : EStateM.Result ConnectionError σ Next → σ
  | .ok .continue_ s => s
  | .ok .close s => conclude .quiet s
  | .error e s => conclude (.failed e) s

end H2Proxy
