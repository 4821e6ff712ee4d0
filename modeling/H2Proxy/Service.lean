import H2Proxy.Hpack.Codec

/-
  The request/response seam (`core/src/service.rs`): message validation, the events a
  responder answers with, and the responder interface.

  A responder is a state and what its methods do to it. What it does to the outside comes
  back as a list of effects: the events it sends on its own channel, and the messages it
  sends elsewhere.
-/

namespace H2Proxy

/-! ## Field validation -/

/-- Fields that describe one HTTP/1.x hop. -/
def connectionSpecific : List Bytes :=
  ["connection", "keep-alive", "proxy-connection", "transfer-encoding", "upgrade"].map ascii

def isAsciiUppercase (b : UInt8) : Bool := 0x41 ≤ b && b ≤ 0x5a
def isAsciiDigit (b : UInt8) : Bool := 0x30 ≤ b && b ≤ 0x39

/-- `str::parse` into an unsigned integer of maximum `max`: an optional `+`, then digits. -/
def parseUint (max : Nat) (s : Bytes) : Option Nat :=
  let digits := match s with
    | 0x2b :: rest => rest
    | _ => s
  if digits = [] || !digits.all isAsciiDigit then none
  else
    let n := digits.foldl (fun n b => 10 * n + (b.toNat - 0x30)) 0
    if n ≤ max then some n else none

def isPseudo (name : Bytes) : Bool := name.head? == some 0x3a

/-- The checks a regular field's name passes in every kind of field section. -/
def badFieldName (name : Bytes) : Bool :=
  name = [] || name.any isAsciiUppercase || connectionSpecific.contains name

/-- A validated request line plus its regular fields. -/
structure RequestHead where
  method : Bytes
  scheme : Bytes
  authority : Option Bytes
  path : Bytes
  fields : List Header
deriving DecidableEq

namespace RequestHead

/-- The pseudo-headers seen so far, the regular fields, and whether one was seen. -/
structure Partial where
  method : Option Bytes
  scheme : Option Bytes
  authority : Option Bytes
  path : Option Bytes
  fields : List Header
  seenRegular : Bool

/-- `slot.replace(value)`, refusing a slot that is taken. -/
def fill (slot : Option Bytes) (value : Bytes) : Except ErrorCode (Option Bytes) :=
  match slot with
  | some _ => .error .protocolError
  | none => .ok (some value)

def Partial.step (p : Partial) (h : Header) : Except ErrorCode Partial :=
  if isPseudo h.name then
    if p.seenRegular then .error .protocolError
    else if h.name = ascii ":method" then
      (fill p.method h.value).map fun v => { p with method := v }
    else if h.name = ascii ":scheme" then
      (fill p.scheme h.value).map fun v => { p with scheme := v }
    else if h.name = ascii ":authority" then
      (fill p.authority h.value).map fun v => { p with authority := v }
    else if h.name = ascii ":path" then
      (fill p.path h.value).map fun v => { p with path := v }
    else .error .protocolError
  else if badFieldName h.name then .error .protocolError
  else if h.name = ascii "te" && h.value ≠ ascii "trailers" then .error .protocolError
  else .ok { p with fields := p.fields ++ [h], seenRegular := true }

/-- Validate a decoded header list into a request. -/
def fromHeaders (headers : List Header) : Except ErrorCode RequestHead := do
  let p ← headers.foldlM Partial.step ⟨none, none, none, none, [], false⟩
  match p.method, p.scheme, p.path with
  | some method, some scheme, some path =>
    if path = [] then .error .protocolError
    else .ok ⟨method, scheme, p.authority, path, p.fields⟩
  | _, _, _ => .error .protocolError

/-- The header list to send upstream: pseudo-headers first, then the fields as they came. -/
def toHeaders (r : RequestHead) : List Header :=
  [.new (ascii ":method") r.method, .new (ascii ":scheme") r.scheme] ++
    (match r.authority with
      | some a => [.new (ascii ":authority") a]
      | none => []) ++
    [.new (ascii ":path") r.path] ++ r.fields

/-- The path with any query string removed. -/
def pathOnly (r : RequestHead) : Bytes := r.path.takeWhile (· ≠ 0x3f)

/-- The body length the request declares, if any. -/
def contentLength (r : RequestHead) : Option (Except ErrorCode Nat) :=
  (r.fields.find? fun h => h.name = ascii "content-length").map fun h =>
    match parseUint (2 ^ 64 - 1) h.value with
    | some n => .ok n
    | none => .error .protocolError

end RequestHead

/-- Validate a trailer section: no pseudo-headers, no connection-specific fields. -/
def validateTrailers (headers : List Header) : Except ErrorCode Unit :=
  if headers.any fun h => isPseudo h.name || badFieldName h.name then .error .protocolError
  else .ok ()

/-- A validated response line plus its regular fields. -/
structure ResponseHead where
  status : Nat
  fields : List Header
deriving DecidableEq

namespace ResponseHead

/-- The status and the fields so far, and whether a regular field was seen. -/
structure Partial where
  status : Option Nat
  fields : List Header
  seenRegular : Bool

def Partial.step (p : Partial) (h : Header) : Except ErrorCode Partial :=
  if isPseudo h.name then
    if p.seenRegular || h.name ≠ ascii ":status" then .error .protocolError
    else if p.status.isSome then .error .protocolError
    else match (parseUint (2 ^ 16 - 1) h.value).filter fun s => 100 ≤ s && s ≤ 599 with
      | some s => .ok { p with status := some s }
      | none => .error .protocolError
  else if badFieldName h.name then .error .protocolError
  else .ok { p with fields := p.fields ++ [h], seenRegular := true }

/-- Validate a decoded response header list. -/
def fromHeaders (headers : List Header) : Except ErrorCode ResponseHead := do
  let p ← headers.foldlM Partial.step ⟨none, [], false⟩
  match p.status with
  | some status => .ok ⟨status, p.fields⟩
  | none => .error .protocolError

def isInformational (r : ResponseHead) : Bool := r.status ≥ 100 && r.status < 200

end ResponseHead

/-- A response head to send on one stream. -/
structure Response where
  status : Nat
  fields : List Header
deriving DecidableEq

namespace Response

/-- A response with no fields beyond `:status`; `Response::status` in the source. -/
def ofStatus (status : Nat) : Response := ⟨status, []⟩

def toHeaders (r : Response) : List Header :=
  .new (ascii ":status") (ascii (toString r.status)) :: r.fields

end Response

/-! ## Events -/

/-- What a responder tells the connection to do with a client stream. -/
inductive ServiceEvent
  | head (id : StreamId) (response : Response) (endStream : Bool)
  | data (id : StreamId) (data : Bytes) (endStream : Bool)
  | trailers (id : StreamId) (fields : List Header)
  | bodyAccepted (id : StreamId) (n : Nat)
  | reset (id : StreamId) (code : ErrorCode)
  | gone (id : StreamId)
  | shed (id : StreamId)
deriving DecidableEq

namespace ServiceEvent

/-- The client stream the event names. -/
def id : ServiceEvent → StreamId
  | head id .. | data id .. | trailers id _ | bodyAccepted id _ | reset id _ | gone id
  | shed id => id

/-- The upstream failed or refused the request before it could answer it. -/
def isRefusal : ServiceEvent → Bool
  | gone _ | shed _ => true
  | _ => false

end ServiceEvent

/-! ## Responders -/

/-- What a responder does to the outside: an event on its own channel, or a message of
    type `μ` to whatever it works with. -/
inductive Effect (μ : Type)
  | emit (event : ServiceEvent)
  | send (message : μ)

/-- What answers a request on a stream. `drop` is what the responder's destructor does. -/
class Service (σ : Type) (μ : outParam Type) where
  dispatch : Instant → StreamId → RequestHead → Bool → σ → σ × List (Effect μ)
  body : Instant → StreamId → Bytes → Bool → σ → σ × List (Effect μ)
  trailers : Instant → StreamId → List Header → σ → σ × List (Effect μ) :=
    fun _ _ _ s => (s, [])
  cancel : Instant → StreamId → ErrorCode → σ → σ × List (Effect μ) := fun _ _ _ s => (s, [])
  finish : Instant → StreamId → σ → σ × List (Effect μ) := fun _ _ s => (s, [])
  released : Instant → StreamId → Nat → σ → σ × List (Effect μ) := fun _ _ _ s => (s, [])
  intercept : Instant → ServiceEvent → σ → (σ × List (Effect μ)) × Option ServiceEvent :=
    fun _ e s => ((s, []), some e)
  drop : Instant → σ → σ × List (Effect μ) := fun _ s => (s, [])

/-- The contract of `intercept`: the event is handed on as it is, or swallowed. -/
class LawfulService (σ : Type) {μ : Type} [Service σ μ] : Prop where
  intercept_eq : ∀ now e (s : σ) e', (Service.intercept now e s).2 = some e' → e' = e

/-! ## The built-in responder -/

/-- Ceiling on a `/bytes/<n>` response. -/
def maxSizedBody : Nat := 64 * 1024 * 1024

/-- Parse `/bytes/<n>`, capped; `none` for any other path. -/
def sizedBodyRequest (path : Bytes) : Option Nat :=
  let stem := ascii "/bytes/"
  if stem.isPrefixOf path then
    let rest := path.drop stem.length
    if rest = [] || !rest.all isAsciiDigit then none
    else some (min ((parseUint (2 ^ 64 - 1) rest).getD maxSizedBody) maxSizedBody)
  else none

/-- The control responder: sized bodies, echoes and a filler body. -/
structure Echo where
  defaultBody : Nat
  /-- Streams still mirroring their request body back. -/
  echoing : List StreamId

namespace Echo

def new (defaultBody : Nat) : Echo := ⟨defaultBody, []⟩

/-- The letter `x`, of which generated bodies are made. -/
def filler : UInt8 := 0x78

def dispatch (id : StreamId) (head : RequestHead) (endStream : Bool) (s : Echo) :
    Echo × List (Effect Empty) :=
  match sizedBodyRequest head.pathOnly with
  | some n =>
    (s, [.emit (.head id ⟨200, [.new (ascii "content-length") (ascii (toString n))]⟩ (n == 0))] ++
      if n > 0 then [.emit (.data id (List.replicate n filler) true)] else [])
  | none =>
    let echoing := !endStream && head.method ≠ ascii "GET" && head.method ≠ ascii "HEAD"
    let answer := Effect.emit (.head id (.ofStatus 200) false)
    if echoing then ({ s with echoing := s.echoing.insert id }, [answer])
    else (s, [answer, .emit (.data id (List.replicate s.defaultBody filler) true)])

def body (id : StreamId) (data : Bytes) (endStream : Bool) (s : Echo) :
    Echo × List (Effect Empty) :=
  let n := data.length % 2 ^ 32
  ({ s with echoing := if endStream then s.echoing.filter (· ≠ id) else s.echoing },
    (if s.echoing.contains id && (data ≠ [] || endStream) then
      [.emit (.data id data endStream)] else []) ++
    if n > 0 then [.emit (.bodyAccepted id n)] else [])

instance : Service Echo Empty where
  dispatch _ := dispatch
  body _ := body
  cancel _ id _ s := ({ s with echoing := s.echoing.filter (· ≠ id) }, [])

instance : LawfulService Echo where
  intercept_eq _ _ _ _ h := (Option.some.inj h).symm

end Echo

end H2Proxy
