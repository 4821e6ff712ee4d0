import H2Proxy.Hpack.RoundTrip
import H2Proxy.Proxy.Forward

/-
  Never-indexed fields, from the client's block to the backend's: decoding, the request
  head, `sanitize`, `add_forwarded`, the list rebuilt from the head, and the encoder.

  The mark is kept by whatever carries the field itself. The head holds the pseudo-headers as
  plain values, and a chain of `x-forwarded-for` is written out as a new field: there it is
  lost.
-/

namespace H2Proxy

open Hpack

/-! ## At the encoder -/

/-- The field is written as a literal never indexed, and the table is left alone. -/
def NeverIndexed (e : HpackEncoder) (h : Header) : Prop :=
  (e.encodeOne h).1.table = e.table ∧
    ∃ first rest, (e.encodeOne h).2 = first :: rest ∧ first &&& 0xf0 = 0x10

/-- Wherever the field stands in the list, it is never indexed. The encoder is the one the
    block starts with. -/
def Shielded (e : HpackEncoder) (list : List Header) (h : Header) : Prop :=
  h ∈ list ∧ ∀ before after, list = before ++ h :: after → NeverIndexed (e.encodeAll before).1 h

theorem encodeInt_cons (value prefixBits : Nat) (highBits : UInt8) :
    ∃ w < 2 ^ prefixBits, ∃ octets,
      encodeInt value prefixBits highBits = (highBits ||| UInt8.ofNat w) :: octets := by
  have hpos : 0 < 2 ^ prefixBits := Nat.two_pow_pos prefixBits
  unfold encodeInt
  dsimp only
  split
  · exact ⟨value, by omega, [], rfl⟩
  · exact ⟨2 ^ prefixBits - 1, by omega, _, rfl⟩

/-- The never-indexed representation is that of the sensitive fields and of no others. -/
theorem neverIndexed_iff (e : HpackEncoder) (h : Header) :
    NeverIndexed e h ↔ h.sensitive = true := by
  constructor
  · rintro ⟨-, first, rest, hoctets, hfirst⟩
    by_contra hplain
    have hindexed : ∀ w < 2 ^ 7, ((0x80 : UInt8) ||| UInt8.ofNat w) &&& 0xf0 ≠ 0x10 := by decide
    have hstored : ∀ w < 2 ^ 6, ((0x40 : UInt8) ||| UInt8.ofNat w) &&& 0xf0 ≠ 0x10 := by decide
    unfold HpackEncoder.encodeOne at hoctets
    rw [if_neg hplain] at hoctets
    cases hfind : find e.table h.name h.value with
    | full i =>
      obtain ⟨w, hw, octets, henc⟩ := encodeInt_cons i 7 0x80
      simp only [hfind, henc] at hoctets
      injection hoctets with hhead
      exact hindexed w hw (hhead ▸ hfirst)
    | name i =>
      obtain ⟨w, hw, octets, henc⟩ := encodeInt_cons i 6 0x40
      simp only [hfind, henc, List.cons_append] at hoctets
      injection hoctets with hhead
      exact hstored w hw (hhead ▸ hfirst)
    | none =>
      simp only [hfind, List.cons_append] at hoctets
      injection hoctets with hhead
      rw [← hhead] at hfirst
      exact absurd hfirst (by decide)
  · intro hsensitive
    have hnever : ∀ w < 2 ^ 4, ((0x10 : UInt8) ||| UInt8.ofNat w) &&& 0xf0 = 0x10 := by decide
    have hnamed : ∀ i value, ∃ first rest, encodeInt i 4 0x10 ++ value = first :: rest ∧
        first &&& 0xf0 = 0x10 := by
      intro i value
      obtain ⟨w, hw, octets, henc⟩ := encodeInt_cons i 4 0x10
      exact ⟨_, _, by rw [henc, List.cons_append], hnever w hw⟩
    unfold NeverIndexed HpackEncoder.encodeOne
    rw [if_pos hsensitive]
    refine ⟨rfl, ?_⟩
    cases hfind : find e.table h.name h.value with
    | full i => exact hnamed i _
    | name i => exact hnamed i _
    | none => exact ⟨0x10, _, rfl, by decide⟩

theorem shielded_iff {e : HpackEncoder} {list : List Header} {h : Header} (hmem : h ∈ list) :
    Shielded e list h ↔ h.sensitive = true := by
  constructor
  · rintro ⟨-, hall⟩
    obtain ⟨before, after, hsplit⟩ := List.append_of_mem hmem
    exact (neverIndexed_iff _ h).mp (hall before after hsplit)
  · exact fun hsensitive => ⟨hmem, fun before after _ => (neverIndexed_iff _ h).mpr hsensitive⟩

/-! ## Through the request head -/

namespace RequestHead

/-- The pseudo-headers taken so far, as they will be rebuilt. -/
def Partial.pseudo (p : Partial) : List Header :=
  (p.method.map (Header.new (ascii ":method"))).toList ++
    (p.scheme.map (Header.new (ascii ":scheme"))).toList ++
    (p.authority.map (Header.new (ascii ":authority"))).toList ++
    (p.path.map (Header.new (ascii ":path"))).toList

theorem Partial.mem_pseudo {p : Partial} {x : Header} :
    x ∈ p.pseudo ↔ (∃ v, p.method = some v ∧ x = .new (ascii ":method") v) ∨
      (∃ v, p.scheme = some v ∧ x = .new (ascii ":scheme") v) ∨
      (∃ v, p.authority = some v ∧ x = .new (ascii ":authority") v) ∨
      ∃ v, p.path = some v ∧ x = .new (ascii ":path") v := by
  simp [pseudo, eq_comm]

theorem fill_map {slot : Option Bytes} {value : Bytes} {f : Option Bytes → Partial} {p : Partial}
    (h : (fill slot value).map f = .ok p) : slot = none ∧ p = f (some value) := by
  cases slot with
  | some v => cases h
  | none =>
    cases h
    exact ⟨rfl, rfl⟩

/-- One field of a valid request: a pseudo-header fills its slot, a regular field is kept as it
    is. -/
theorem Partial.step_cases {p p' : Partial} {h : Header} (hstep : p.step h = .ok p') :
    (isPseudo h.name = true ∧ p'.fields = p.fields ∧
      ∀ x, x ∈ p'.pseudo ↔ x ∈ p.pseudo ∨ x = .new h.name h.value) ∨
    (isPseudo h.name = false ∧ p' = { p with fields := p.fields ++ [h], seenRegular := true }) := by
  unfold Partial.step at hstep
  split at hstep
  · rename_i hpseudo
    refine .inl ⟨hpseudo, ?_⟩
    split at hstep
    · cases hstep
    · split at hstep
      · rename_i hname
        obtain ⟨hslot, rfl⟩ := fill_map hstep
        exact ⟨rfl, fun x => by simp only [Partial.mem_pseudo]; grind⟩
      · split at hstep
        · rename_i hname
          obtain ⟨hslot, rfl⟩ := fill_map hstep
          exact ⟨rfl, fun x => by simp only [Partial.mem_pseudo]; grind⟩
        · split at hstep
          · rename_i hname
            obtain ⟨hslot, rfl⟩ := fill_map hstep
            exact ⟨rfl, fun x => by simp only [Partial.mem_pseudo]; grind⟩
          · split at hstep
            · rename_i hname
              obtain ⟨hslot, rfl⟩ := fill_map hstep
              exact ⟨rfl, fun x => by simp only [Partial.mem_pseudo]; grind⟩
            · cases hstep
  · rename_i hregular
    refine .inr ⟨Bool.not_eq_true _ ▸ hregular, ?_⟩
    split at hstep
    · cases hstep
    · split at hstep
      · cases hstep
      · cases hstep
        rfl

/-- The fields of a valid request: the pseudo-headers by their values, the others whole and in
    order. -/
theorem foldlM_step {headers : List Header} {p p' : Partial}
    (h : headers.foldlM Partial.step p = .ok p') :
    p'.fields = p.fields ++ headers.filter (!isPseudo ·.name) ∧
      ∀ x, x ∈ p'.pseudo ↔
        x ∈ p.pseudo ∨ ∃ h ∈ headers, isPseudo h.name = true ∧ x = .new h.name h.value := by
  induction headers generalizing p with
  | nil =>
    cases h
    simp
  | cons a headers ih =>
    rw [List.foldlM_cons] at h
    cases ha : p.step a with
    | error code =>
      rw [ha] at h
      cases h
    | ok p₁ =>
      rw [ha] at h
      obtain ⟨hfields, hpseudo⟩ := ih h
      rcases Partial.step_cases ha with ⟨hp, hf, hx⟩ | ⟨hp, rfl⟩
      · refine ⟨by simp [hfields, hf, hp], fun x => ?_⟩
        rw [hpseudo, hx]
        simp [hp, or_assoc]
      · refine ⟨by simp [hfields, hp], fun x => ?_⟩
        rw [hpseudo]
        simp [hp, Partial.pseudo]

/-- What a valid request is rebuilt from: its regular fields, and its pseudo-headers by their
    values alone. -/
theorem fromHeaders_spec {headers : List Header} {head : RequestHead}
    (h : fromHeaders headers = .ok head) :
    head.fields = headers.filter (!isPseudo ·.name) ∧
      ∀ a ∈ headers, isPseudo a.name = true → .new a.name a.value ∈ head.toHeaders := by
  unfold fromHeaders at h
  cases hfold : headers.foldlM Partial.step ⟨none, none, none, none, [], false⟩ with
  | error code =>
    rw [hfold] at h
    cases h
  | ok p =>
    obtain ⟨hfields, hpseudo⟩ := foldlM_step hfold
    rw [hfold] at h
    simp only [bind, Except.bind] at h
    split at h
    · rename_i method scheme path hmethod hscheme hpath
      split at h
      · cases h
      · cases h
        refine ⟨hfields, fun a ha hp => ?_⟩
        have hmem := (hpseudo (.new a.name a.value)).mpr (.inr ⟨a, ha, hp, rfl⟩)
        rw [Partial.mem_pseudo, hmethod, hscheme, hpath] at hmem
        unfold toHeaders
        rcases hmem with ⟨v, hv, ha⟩ | ⟨v, hv, ha⟩ | ⟨v, hv, ha⟩ | ⟨v, hv, ha⟩
        · cases hv
          simp [ha]
        · cases hv
          simp [ha]
        · simp [hv, ha]
        · cases hv
          simp [ha]
    · cases h

end RequestHead

/-! ## Through the proxy -/

/-- The proxy sends the value of this field of the client's request on: it drops `te`, and in
    place of what the client says about the hops before it writes its own, with the client's
    chain in it if that is trusted. -/
def forwardsValue (peer : Option Bytes) (trustForwarded : Bool) (head : RequestHead)
    (h : Header) : Bool :=
  isPseudo h.name || h.name ≠ ascii "te" &&
    (peer.isNone || h.name ≠ xForwardedProto &&
      (h.name ≠ xForwardedFor || trustForwarded &&
        ((sanitize head).fields.find? fun f => f.name = xForwardedFor).map (·.value) =
          some h.value))

/-- The field of the upstream request that has the value of this one. -/
def image (peer : Option Bytes) (h : Header) : Header :=
  if isPseudo h.name then .new h.name h.value
  else
    match peer with
    | some peer =>
      if h.name = xForwardedFor then
        .new xForwardedFor (fromUtf8Lossy h.value ++ ascii ", " ++ peer)
      else h
    | none => h

theorem mem_addForwarded_toHeaders {peer : Option Bytes} {trust : Bool} {head : RequestHead}
    {h : Header} (hmem : h ∈ (addForwarded peer trust head).fields) :
    h ∈ (addForwarded peer trust head).toHeaders := by
  unfold RequestHead.toHeaders
  exact List.mem_append_right _ hmem

/-- The proxy leaves the request line alone. -/
theorem pseudo_forwarded {peer : Option Bytes} {trust : Bool} {head : RequestHead} {h : Header}
    (hmem : h ∈ head.toHeaders) (hfields : h ∉ head.fields) :
    h ∈ (addForwarded peer trust (sanitize head)).toHeaders := by
  unfold RequestHead.toHeaders at hmem ⊢
  have hline : h ∈ [Header.new (ascii ":method") head.method,
      .new (ascii ":scheme") head.scheme] ++
      (match head.authority with
        | some a => [.new (ascii ":authority") a]
        | none => []) ++ [.new (ascii ":path") head.path] :=
    (List.mem_append.mp hmem).resolve_right hfields
  refine List.mem_append_left _ ?_
  cases peer with
  | none => exact hline
  | some peer => exact hline

theorem image_mem {headers : List Header} {head : RequestHead}
    (valid : RequestHead.fromHeaders headers = .ok head) {h : Header} (hmem : h ∈ headers)
    {peer : Option Bytes} {trust : Bool} (hforwards : forwardsValue peer trust head h = true) :
    image peer h ∈ (addForwarded peer trust (sanitize head)).toHeaders := by
  obtain ⟨hfields, hline⟩ := RequestHead.fromHeaders_spec valid
  unfold image
  split
  · rename_i hpseudo
    refine pseudo_forwarded (hline h hmem hpseudo) fun hin => ?_
    rw [hfields] at hin
    simp [Header.new, hpseudo] at hin
  · rename_i hpseudo
    refine mem_addForwarded_toHeaders ?_
    have hregular : h ∈ head.fields := by
      rw [hfields]
      simp [hmem, hpseudo]
    simp only [forwardsValue, hpseudo, Bool.false_or, Bool.and_eq_true, Bool.or_eq_true,
      decide_eq_true_eq] at hforwards
    obtain ⟨hte, hforwards⟩ := hforwards
    have hkept : h ∈ (sanitize head).fields := by
      simp [sanitize, hregular, hte]
    cases peer with
    | none => exact hkept
    | some peer =>
      obtain ⟨hproto, hchain⟩ := hforwards.resolve_left (by simp)
      by_cases hfor : h.name = xForwardedFor
      · obtain ⟨htrust, hchain⟩ := hchain.resolve_left (not_not.mpr hfor)
        simp only [addForwarded, htrust, if_true, hchain, if_pos hfor]
        simp
      · dsimp only
        rw [if_neg hfor]
        simp [addForwarded, hkept, hfor, hproto]

/-- A field the client marked is never indexed upstream exactly if the proxy passes the field
    itself on: a regular field, and not a chain of `x-forwarded-for` the proxy adds to. -/
theorem shielded_image_iff (e : HpackEncoder) {headers : List Header} {head : RequestHead}
    (valid : RequestHead.fromHeaders headers = .ok head) {h : Header} (hmem : h ∈ headers)
    (hsensitive : h.sensitive = true) {peer : Option Bytes} {trust : Bool}
    (hforwards : forwardsValue peer trust head h = true) :
    Shielded e (addForwarded peer trust (sanitize head)).toHeaders (image peer h) ↔
      isPseudo h.name = false ∧ ¬(h.name = xForwardedFor ∧ peer.isSome = true) := by
  rw [shielded_iff (image_mem valid hmem hforwards)]
  unfold image
  cases hp : isPseudo h.name with
  | true => simp [Header.new]
  | false =>
    cases peer with
    | none => simp [hsensitive]
    | some peer =>
      by_cases hfor : h.name = xForwardedFor
      · simp [hfor, Header.new]
      · simp [hfor, hsensitive]

/-- A request whose path and credentials are both marked. -/
def marked : List Header :=
  [.new (ascii ":method") (ascii "GET"), .new (ascii ":scheme") (ascii "https"),
    ⟨ascii ":path", ascii "/k", true⟩, ⟨ascii "authorization", ascii "k", true⟩]

def markedHead : RequestHead :=
  ⟨ascii "GET", ascii "https", none, ascii "/k", [⟨ascii "authorization", ascii "k", true⟩]⟩

theorem credentials_shielded :
    Shielded (.new 4096) (addForwarded (some (ascii "::1")) true (sanitize markedHead)).toHeaders
      (image (some (ascii "::1")) ⟨ascii "authorization", ascii "k", true⟩) :=
  (shielded_image_iff (.new 4096)
    (show RequestHead.fromHeaders marked = .ok markedHead by decide +kernel)
    (by decide +kernel) rfl (by decide +kernel)).mpr (by decide +kernel)

theorem path_exposed :
    ¬∀ (e : HpackEncoder) (headers : List Header) (head : RequestHead) (h : Header)
      (peer : Option Bytes) (trust : Bool), RequestHead.fromHeaders headers = .ok head →
        h ∈ headers → h.sensitive = true → forwardsValue peer trust head h = true →
          Shielded e (addForwarded peer trust (sanitize head)).toHeaders (image peer h) := by
  intro all
  have hshielded := all (.new 4096) marked markedHead ⟨ascii ":path", ascii "/k", true⟩
    (some (ascii "::1")) true (by decide +kernel) (by decide +kernel) rfl (by decide +kernel)
  exact absurd ((shielded_iff hshielded.1).mp hshielded) (by decide +kernel)

end H2Proxy
