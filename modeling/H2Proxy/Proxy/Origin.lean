import H2Proxy.Validation
import H2Proxy.Proxy.Forward

/-
  What the backend is told about who the client is.

  Whatever the client wrote under the two names is replaced by one field each (`origin_sent`);
  unless the chain is trusted, nothing of it is left to see (`origin_unheard`).
-/

namespace H2Proxy

/-- The field list of the upstream request. -/
def upstreamFields (peer : Bytes) (trustForwarded : Bool) (headers : List Header) :
    Except ErrorCode (List Header) :=
  (RequestHead.fromHeaders headers).map fun head =>
    (addForwarded (some peer) trustForwarded (sanitize head)).toHeaders

/-- A field that says where a request came from. -/
def isOrigin (h : Header) : Bool := h.name = xForwardedFor || h.name = xForwardedProto

/-- The chains of hops a list carries, in order. -/
def chains (headers : List Header) : List Bytes :=
  (headers.filter fun h => h.name = xForwardedFor).map (·.value)

/-- The chain that is sent on: the first one that came, where it is trusted, and the peer. -/
def sentChain (peer : Bytes) (trustForwarded : Bool) (headers : List Header) : Bytes :=
  match (if trustForwarded then value? xForwardedFor headers else none) with
  | some chain => fromUtf8Lossy chain ++ ascii ", " ++ peer
  | none => peer

/-- A field that is passed on as it came. -/
def isKept (h : Header) : Bool := h.name ≠ ascii "te" && !isOrigin h

section

variable {headers : List Header} {p : Header → Bool} {name : Bytes}

/-- A filter that spares a name leaves its first value. -/
theorem value?_filter (spares : ∀ h, h.name = name → p h) :
    value? name (headers.filter p) = value? name headers := by
  unfold value?
  rw [List.find?_filter]
  congr 2
  funext h
  by_cases named : h.name = name
  · simp [named, spares h named]
  · simp [named]

theorem regularFields_filter : regularFields (headers.filter p) = (regularFields headers).filter p := by
  unfold regularFields
  rw [List.filter_filter, List.filter_filter]
  congr 1
  funext h
  exact Bool.and_comm ..

/-- The fields of the head that is forwarded. -/
theorem forwarded_fields (peer : Bytes) (trust : Bool) {head : RequestHead}
    (fields : head.fields = regularFields headers) :
    (addForwarded (some peer) trust (sanitize head)).fields =
      (regularFields headers).filter isKept ++
        [.new xForwardedFor (sentChain peer trust headers),
          .new xForwardedProto (ascii "https")] := by
  have chain : value? xForwardedFor ((regularFields headers).filter fun f => f.name ≠ ascii "te") =
      value? xForwardedFor headers := by
    rw [value?_filter fun h named => by rw [named]; decide]
    exact value?_filter fun h named => by rw [named]; decide
  have kept : ((regularFields headers).filter fun f => f.name ≠ ascii "te").filter
      (fun f => f.name ≠ xForwardedFor && f.name ≠ xForwardedProto) =
      (regularFields headers).filter isKept := by
    rw [List.filter_filter]
    congr 1
    funext h
    simp [isKept, isOrigin, Bool.and_comm]
  unfold addForwarded sanitize sentChain
  rw [fields, ← kept, ← chain]
  rfl

/-- The pseudo-headers of the list that is rebuilt from a head. -/
def requestLine (head : RequestHead) : List Header :=
  [.new (ascii ":method") head.method, .new (ascii ":scheme") head.scheme] ++
    (match head.authority with
      | some a => [.new (ascii ":authority") a]
      | none => []) ++
    [.new (ascii ":path") head.path]

theorem requestLine_pseudo (head : RequestHead) : ∀ h ∈ requestLine head, isPseudo h.name := by
  unfold requestLine
  cases head.authority with
  | none => simp [Header.new]; decide
  | some a => simp [Header.new]; decide

theorem value?_requestLine (head : RequestHead) :
    value? (ascii ":method") (requestLine head) = some head.method ∧
      value? (ascii ":scheme") (requestLine head) = some head.scheme ∧
      value? (ascii ":authority") (requestLine head) = head.authority ∧
      value? (ascii ":path") (requestLine head) = some head.path := by
  unfold requestLine
  cases head.authority with
  | none => exact ⟨rfl, rfl, rfl, rfl⟩
  | some a => exact ⟨rfl, rfl, rfl, rfl⟩

variable {head : RequestHead} (regular : ∀ h ∈ head.fields, isPseudo h.name = false)

include regular

theorem regularFields_toHeaders : regularFields head.toHeaders = head.fields := by
  have pseudo : (requestLine head).filter (fun h => !isPseudo h.name) = [] :=
    List.filter_eq_nil_iff.mpr fun h hmem => by simp [requestLine_pseudo head h hmem]
  have all : head.fields.filter (fun h => !isPseudo h.name) = head.fields :=
    List.filter_eq_self.mpr fun h hmem => by simp [regular h hmem]
  show ((requestLine head) ++ head.fields).filter _ = head.fields
  rw [List.filter_append, pseudo, all, List.nil_append]

theorem value?_toHeaders (pseudo : isPseudo name) :
    value? name head.toHeaders = value? name (requestLine head) := by
  have absent : head.fields.find? (fun h => h.name = name) = none := by
    refine List.find?_eq_none.mpr fun h hmem => ?_
    intro named
    have other := regular h hmem
    rw [of_decide_eq_true named, pseudo] at other
    cases other
  show ((requestLine head ++ head.fields).find? _).map _ = _
  rw [List.find?_append, absent, Option.or_none]
  rfl

end

/-! ## What is sent -/

section

variable {peer : Bytes} {trust : Bool} {headers out : List Header}

/-- The request of the client, and what is made of it. -/
theorem upstreamFields_ok (sent : upstreamFields peer trust headers = .ok out) :
    ∃ head, RequestHead.fromHeaders headers = .ok head ∧
      out = (addForwarded (some peer) trust (sanitize head)).toHeaders := by
  unfold upstreamFields at sent
  cases read : RequestHead.fromHeaders headers with
  | error e => rw [read] at sent; cases sent
  | ok head =>
    rw [read] at sent
    exact ⟨head, rfl, (Except.ok.inj sent).symm⟩

theorem regular_of_mem {h : Header} (hmem : h ∈ regularFields headers) : isPseudo h.name = false := by
  simpa using (List.mem_filter.mp hmem).2

theorem forwarded_regular (peer : Bytes) (trust : Bool) {head : RequestHead}
    (fields : head.fields = regularFields headers) :
    ∀ h ∈ (addForwarded (some peer) trust (sanitize head)).fields, isPseudo h.name = false := by
  rw [forwarded_fields peer trust fields]
  intro h hmem
  obtain kept | new := List.mem_append.mp hmem
  · exact regular_of_mem (List.mem_filter.mp kept).1
  · simp only [List.mem_cons, List.not_mem_nil, or_false] at new
    obtain rfl | rfl := new
    · rfl
    · rfl

/-- The regular fields that are sent: those kept, in order, then one chain and one scheme. -/
theorem regularFields_sent (sent : upstreamFields peer trust headers = .ok out) :
    regularFields out = (regularFields headers).filter isKept ++
      [.new xForwardedFor (sentChain peer trust headers), .new xForwardedProto (ascii "https")] := by
  obtain ⟨head, read, rfl⟩ := upstreamFields_ok sent
  have fields := (RequestHead.fromHeaders_ok.mp read).2.2.2.2.2
  rw [regularFields_toHeaders (forwarded_regular peer trust fields), forwarded_fields peer trust fields]

/-- The request line is sent with the values it came with. -/
theorem requestLine_sent (sent : upstreamFields peer trust headers = .ok out) {name : Bytes}
    (pseudo : name ∈ requestPseudo) : value? name out = value? name headers := by
  obtain ⟨head, read, rfl⟩ := upstreamFields_ok sent
  obtain ⟨-, method, scheme, authority, path, fields⟩ := RequestHead.fromHeaders_ok.mp read
  have kind : ∀ n ∈ requestPseudo, isPseudo n = true := by decide
  rw [value?_toHeaders (forwarded_regular peer trust fields) (kind name pseudo)]
  obtain ⟨m, s, a, q⟩ := value?_requestLine (addForwarded (some peer) trust (sanitize head))
  simp only [requestPseudo, List.map_cons, List.map_nil, List.mem_cons, List.not_mem_nil,
    or_false] at pseudo
  obtain rfl | rfl | rfl | rfl := pseudo
  · exact m.trans method.symm
  · exact s.trans scheme.symm
  · exact a.trans authority.symm
  · exact q.trans path.symm

/-- What is kept of a list is kept of it without the fields of its origin. -/
theorem kept_eq (headers : List Header) :
    (regularFields headers).filter isKept =
      (regularFields (headers.filter fun h => !isOrigin h)).filter fun h => h.name ≠ ascii "te" := by
  rw [regularFields_filter, List.filter_filter]
  rfl

/-- Two requests that agree but for the fields of their origin are sent as one. -/
theorem origin_unheard {headers' out' : List Header}
    (sent : upstreamFields peer false headers = .ok out)
    (sent' : upstreamFields peer false headers' = .ok out')
    (agree : headers.filter (fun h => !isOrigin h) = headers'.filter fun h => !isOrigin h) :
    out = out' := by
  obtain ⟨head, read, rfl⟩ := upstreamFields_ok sent
  obtain ⟨head', read', rfl⟩ := upstreamFields_ok sent'
  obtain ⟨-, method, scheme, authority, path, fields⟩ := RequestHead.fromHeaders_ok.mp read
  obtain ⟨-, method', scheme', authority', path', fields'⟩ := RequestHead.fromHeaders_ok.mp read'
  have line : ∀ name ∈ requestPseudo, value? name headers = value? name headers' := by
    intro name pseudo
    have spares : ∀ h : Header, h.name = name → (!isOrigin h) = true := by
      have other : ∀ n ∈ requestPseudo, n ≠ xForwardedFor ∧ n ≠ xForwardedProto := by decide
      rintro h rfl
      simp [isOrigin, other _ pseudo]
    calc value? name headers
        _ = value? name (headers.filter fun h => !isOrigin h) := (value?_filter spares).symm
        _ = value? name headers' := by rw [agree, value?_filter spares]
  have same : (addForwarded (some peer) false (sanitize head)).fields =
      (addForwarded (some peer) false (sanitize head')).fields := by
    rw [forwarded_fields peer false fields, forwarded_fields peer false fields', kept_eq headers,
      kept_eq headers', agree]
    rfl
  have m : head.method = head'.method :=
    Option.some.inj (method.symm.trans ((line _ (by decide)).trans method'))
  have s : head.scheme = head'.scheme :=
    Option.some.inj (scheme.symm.trans ((line _ (by decide)).trans scheme'))
  have a : head.authority = head'.authority :=
    authority.symm.trans ((line _ (by decide)).trans authority')
  have q : head.path = head'.path :=
    Option.some.inj (path.symm.trans ((line _ (by decide)).trans path'))
  unfold RequestHead.toHeaders
  rw [same]
  show [Header.new (ascii ":method") head.method, .new (ascii ":scheme") head.scheme] ++
      (match head.authority with
        | some a => [Header.new (ascii ":authority") a]
        | none => []) ++ [.new (ascii ":path") head.path] ++ _ = _
  rw [m, s, a, q]
  rfl

theorem value?_chain (headers : List Header) :
    value? xForwardedFor headers = (chains headers).head? := by
  unfold value? chains
  rw [List.head?_map, List.head?_filter]

/-- A field of this name is a field of the origin. -/
theorem kept_filter {name : Bytes} (origin : ∀ h : Header, h.name = name → isOrigin h) :
    ((regularFields headers).filter isKept).filter (fun h => h.name = name) = [] := by
  refine List.filter_eq_nil_iff.mpr fun h hmem named => ?_
  have kept := (List.mem_filter.mp hmem).2
  rw [isKept, origin h (of_decide_eq_true named)] at kept
  simp at kept

/-- What picks regular fields picks them of the regular fields. -/
theorem filter_regular (picks : ∀ h, p h → isPseudo h.name = false) :
    headers.filter p = (regularFields headers).filter p := by
  unfold regularFields
  rw [List.filter_filter]
  congr 1
  funext h
  cases picked : p h with
  | true => rw [picks h picked]; rfl
  | false => rfl

/-- Of a name of the origin, what is sent is what the proxy wrote. -/
theorem filter_sent (sent : upstreamFields peer trust headers = .ok out) {name : Bytes}
    (origin : ∀ h : Header, h.name = name → isOrigin h) (regular : isPseudo name = false) :
    out.filter (fun h => h.name = name) =
      [Header.new xForwardedFor (sentChain peer trust headers),
        .new xForwardedProto (ascii "https")].filter fun h => h.name = name := by
  rw [filter_regular fun h named => by rw [of_decide_eq_true named]; exact regular,
    regularFields_sent sent, List.filter_append, kept_filter origin, List.nil_append]

/-- One chain and one scheme are sent to the backend. Untrusted, the chain is the peer, and
    what the client wrote under the two names changes nothing of what is sent; trusted, a
    chain that came in one field is sent with the peer at its end. All other regular fields
    but `te` are kept in order, and so are the values of the request line. -/
theorem origin_sent (sent : upstreamFields peer trust headers = .ok out) :
    (∃ chain, out.filter (fun h => h.name = xForwardedFor) = [.new xForwardedFor chain] ∧
      ((trust = false ∨ chains headers = []) → chain = peer) ∧
      ∀ v, trust = true → chains headers = [v] →
        chain = fromUtf8Lossy v ++ ascii ", " ++ peer) ∧
    out.filter (fun h => h.name = xForwardedProto) = [.new xForwardedProto (ascii "https")] ∧
    (regularFields out).filter (fun h => !isOrigin h) = (regularFields headers).filter isKept ∧
    (∀ name ∈ requestPseudo, value? name out = value? name headers) ∧
    (trust = false → ∀ headers' out', upstreamFields peer false headers' = .ok out' →
      headers.filter (fun h => !isOrigin h) = headers'.filter (fun h => !isOrigin h) →
        out = out') := by
  refine ⟨⟨sentChain peer trust headers, ?_, ?_, ?_⟩, ?_, ?_, fun name => requestLine_sent sent, ?_⟩
  · exact filter_sent sent (fun h named => by simp [isOrigin, named]) (by decide)
  · rintro (rfl | none_came)
    · rfl
    · unfold sentChain
      rw [value?_chain, none_came]
      cases trust <;> rfl
  · rintro v rfl one
    unfold sentChain
    rw [value?_chain, one]
    rfl
  · exact filter_sent sent (fun h named => by simp [isOrigin, named]) (by decide)
  · rw [regularFields_sent sent, List.filter_append]
    have all : ((regularFields headers).filter isKept).filter (fun h => !isOrigin h) =
        (regularFields headers).filter isKept :=
      List.filter_eq_self.mpr fun h hmem => (Bool.and_eq_true _ _ ▸ (List.mem_filter.mp hmem).2).2
    rw [all]
    exact List.append_nil _
  · rintro rfl headers' out' sent' agree
    exact origin_unheard sent sent' agree

end

/-- `GET /` with these fields. -/
def getWith (fields : List Header) : List Header :=
  [.new (ascii ":method") (ascii "GET"), .new (ascii ":scheme") (ascii "https"),
    .new (ascii ":path") (ascii "/")] ++ fields

/-- A trusted chain of one hop. -/
theorem origin_sent_one :
    (Except.toOption (upstreamFields (ascii "::1") true
      (getWith [.new xForwardedFor (ascii "::2")]))).any fun out =>
        out.filter (fun h => h.name = xForwardedFor) =
          [.new xForwardedFor (ascii "::2, ::1")] := by
  cases sent : upstreamFields (ascii "::1") true (getWith [.new xForwardedFor (ascii "::2")]) with
  | error e =>
    have accepted : (upstreamFields (ascii "::1") true
      (getWith [.new xForwardedFor (ascii "::2")])).isOk = true := by decide +kernel
    rw [sent] at accepted
    cases accepted
  | ok out =>
    obtain ⟨⟨chain, one, -, trusted⟩, -⟩ := origin_sent sent
    have value := trusted (ascii "::2") rfl (by decide +kernel)
    show decide _ = true
    rw [one, value]
    decide +kernel

/-- Two hops wrote the chain in two fields, and the client would take trailers. -/
def twoHops : List Header :=
  getWith [.new xForwardedFor (ascii "::2"), .new xForwardedFor (ascii "::3"),
    .new (ascii "te") (ascii "trailers")]

/-- `te` is not sent; and of two trusted chains only the first is. -/
theorem fields_cut :
    (¬ ∀ peer trust headers out, upstreamFields peer trust headers = .ok out →
      (regularFields out).filter (fun h => !isOrigin h) =
        (regularFields headers).filter fun h => !isOrigin h) ∧
    ¬ ∀ peer headers out, upstreamFields peer true headers = .ok out →
      out.filter (fun h => h.name = xForwardedFor) =
        [.new xForwardedFor (List.intercalate (ascii ", ") (chains headers ++ [peer]))] := by
  have sent : upstreamFields (ascii "::1") true twoHops =
      .ok (getWith [.new xForwardedFor (ascii "::2, ::1"), .new xForwardedProto (ascii "https")]) := by
    decide +kernel
  exact ⟨fun all => absurd (all _ _ _ _ sent) (by decide +kernel),
    fun all => absurd (all _ _ _ sent) (by decide +kernel)⟩

end H2Proxy
