import H2Proxy.Service
import Mathlib.Data.List.Induction
import Mathlib.Data.List.Nodup

/-
  Which field lists the three validators of `core/src/service.rs` let through.

  Each reads its list field by field and keeps what it has seen. `Sectioned` says of a whole
  list what that comes to: pseudo-headers first, none twice, every field passed by a check of
  its own. `Wellformed` is the grammar of HTTP/2 field sections; what is between the two is
  `Plain`, the part of the grammar that is not checked.
-/

namespace H2Proxy

def pseudoFields (headers : List Header) : List Header := headers.filter fun h => isPseudo h.name

def regularFields (headers : List Header) : List Header :=
  headers.filter fun h => !isPseudo h.name

/-- The value of the first field of this name. -/
def value? (name : Bytes) (headers : List Header) : Option Bytes :=
  (headers.find? fun h => h.name = name).map (·.value)

/-- Pseudo-headers come first and each at most once, and every field passes a check. -/
structure Sectioned (check : Header → Bool) (headers : List Header) : Prop where
  ordered : headers = pseudoFields headers ++ regularFields headers
  once : ((pseudoFields headers).map (·.name)).Nodup
  checked : ∀ h ∈ headers, check h

/-! ## Numbers -/

/-- The number these digits denote. -/
def numeral (digits : Bytes) : Nat := digits.foldl (fun n b => 10 * n + (b.toNat - 0x30)) 0

theorem numeral_snoc (digits : Bytes) (b : UInt8) :
    numeral (digits ++ [b]) = 10 * numeral digits + (b.toNat - 0x30) := by
  unfold numeral
  rw [List.foldl_append]
  rfl

theorem numeral_lt {digits : Bytes} (all : ∀ b ∈ digits, isAsciiDigit b) :
    numeral digits < 10 ^ digits.length := by
  induction digits using List.reverseRecOn with
  | nil => decide
  | append_singleton digits b ih =>
    have before := ih fun c hc => all c (List.mem_append_left _ hc)
    have digit : isAsciiDigit b := all b (by simp)
    have top : b.toNat ≤ 0x39 := by
      simp only [isAsciiDigit, Bool.and_eq_true, decide_eq_true_eq] at digit
      exact UInt8.le_iff_toNat_le.mp digit.2
    rw [numeral_snoc, List.length_append, List.length_singleton, Nat.pow_succ]
    omega

/-- `str::parse` past the sign. -/
def parseDigits (max : Nat) (digits : Bytes) : Option Nat :=
  if digits = [] || !digits.all isAsciiDigit then none
  else if numeral digits ≤ max then some (numeral digits) else none

theorem parseDigits_eq_some {max n : Nat} {digits : Bytes} :
    parseDigits max digits = some n ↔
      digits ≠ [] ∧ (∀ b ∈ digits, isAsciiDigit b) ∧ numeral digits = n ∧ n ≤ max := by
  unfold parseDigits
  by_cases good : digits ≠ [] ∧ ∀ b ∈ digits, isAsciiDigit b
  · rw [if_neg (by simpa using good)]
    by_cases fits : numeral digits ≤ max
    · rw [if_pos fits]
      exact ⟨fun h => by cases h; exact ⟨good.1, good.2, rfl, fits⟩, fun h => congrArg _ h.2.2.1⟩
    · rw [if_neg fits]
      exact ⟨nofun, fun h => absurd (h.2.2.1 ▸ h.2.2.2) fits⟩
  · have bad : (digits = [] || !digits.all isAsciiDigit) = true := by
      rw [← Bool.not_eq_false]
      exact fun h => good (by simpa using h)
    rw [if_pos bad]
    exact ⟨nofun, fun h => absurd ⟨h.1, h.2.1⟩ good⟩

/-- What is read as a number: digits, with or without a `+` before them. -/
theorem parseUint_eq_some {max n : Nat} {s : Bytes} :
    parseUint max s = some n ↔
      ∃ digits, (s = digits ∨ s = 0x2b :: digits) ∧ digits ≠ [] ∧
        (∀ b ∈ digits, isAsciiDigit b) ∧ numeral digits = n ∧ n ≤ max := by
  by_cases signed : ∃ rest, s = 0x2b :: rest
  · obtain ⟨rest, rfl⟩ := signed
    have unsigned : parseDigits max rest = some n ↔ _ := parseDigits_eq_some
    refine unsigned.trans ⟨fun h => ⟨rest, .inr rfl, h⟩, ?_⟩
    rintro ⟨digits, rfl | same, h⟩
    · exact absurd (h.2.1 0x2b List.mem_cons_self) (by decide)
    · cases same
      exact h
  · have unsigned : parseUint max s = parseDigits max s := by
      unfold parseUint
      split
      · exact absurd ⟨_, rfl⟩ signed
      · rfl
    rw [unsigned, parseDigits_eq_some]
    refine ⟨fun h => ⟨s, .inl rfl, h⟩, ?_⟩
    rintro ⟨digits, rfl | same, h⟩
    · exact h
    · exact absurd ⟨digits, same⟩ signed

/-! ## One more field -/

section Snoc

variable {headers : List Header} {h : Header} {name : Bytes}

theorem pseudoFields_pseudo (pseudo : isPseudo h.name) :
    pseudoFields (headers ++ [h]) = pseudoFields headers ++ [h] := by
  simp [pseudoFields, pseudo]

theorem pseudoFields_regular (regular : isPseudo h.name = false) :
    pseudoFields (headers ++ [h]) = pseudoFields headers := by
  simp [pseudoFields, regular]

theorem regularFields_pseudo (pseudo : isPseudo h.name) :
    regularFields (headers ++ [h]) = regularFields headers := by
  simp [regularFields, pseudo]

theorem regularFields_regular (regular : isPseudo h.name = false) :
    regularFields (headers ++ [h]) = regularFields headers ++ [h] := by
  simp [regularFields, regular]

theorem value?_snoc_ne (other : h.name ≠ name) : value? name (headers ++ [h]) = value? name headers := by
  unfold value?
  rw [List.find?_append, List.find?_cons_of_neg (by simpa using other), List.find?_nil,
    Option.or_none]

theorem value?_eq_none : value? name headers = none ↔ name ∉ headers.map (·.name) := by
  unfold value?
  rw [Option.map_eq_none_iff, List.find?_eq_none]
  simp

theorem value?_snoc_new (new : value? h.name headers = none) :
    value? h.name (headers ++ [h]) = some h.value := by
  unfold value? at *
  rw [Option.map_eq_none_iff] at new
  rw [List.find?_append, new, Option.none_or, List.find?_cons_of_pos (by simp)]
  rfl

/-- Among the names of a list, a pseudo-header's is that of a pseudo-header. -/
theorem mem_pseudo_names (pseudo : isPseudo name) :
    name ∈ (pseudoFields headers).map (·.name) ↔ name ∈ headers.map (·.name) := by
  simp only [List.mem_map, pseudoFields, List.mem_filter]
  constructor
  · rintro ⟨g, ⟨hg, -⟩, rfl⟩
    exact ⟨g, hg, rfl⟩
  · rintro ⟨g, hg, rfl⟩
    exact ⟨g, ⟨hg, pseudo⟩, rfl⟩

variable {check : Header → Bool}

theorem Sectioned.nil : Sectioned check [] := ⟨rfl, List.nodup_nil, nofun⟩

theorem Sectioned.snoc :
    Sectioned check (headers ++ [h]) ↔ Sectioned check headers ∧ check h ∧
      (isPseudo h.name → regularFields headers = [] ∧ value? h.name headers = none) := by
  have split : (∀ g ∈ headers ++ [h], check g) ↔ (∀ g ∈ headers, check g) ∧ check h := by
    simp [or_imp, forall_and]
  cases kind : isPseudo h.name with
  | true =>
    have apart : ((pseudoFields headers ++ [h]).map (·.name)).Nodup ↔
        ((pseudoFields headers).map (·.name)).Nodup ∧ value? h.name headers = none := by
      rw [value?_eq_none, ← mem_pseudo_names kind, List.map_append, List.map_singleton,
        List.nodup_append_comm]
      exact List.nodup_cons.trans and_comm
    have last : headers ++ [h] = (pseudoFields headers ++ [h]) ++ regularFields headers ↔
        headers = pseudoFields headers ++ regularFields headers ∧ regularFields headers = [] := by
      constructor
      · intro whole
        have none_yet : regularFields headers = [] := by
          rcases List.eq_nil_or_concat (regularFields headers) with nil | ⟨init, g, concat⟩
          · exact nil
          · rw [concat, List.concat_eq_append, ← List.append_assoc] at whole
            have same := (List.append_inj' whole rfl).2
            have regular : g ∈ regularFields headers := by rw [concat]; simp
            rw [← List.singleton_injective same] at regular
            simp [regularFields, kind] at regular
        rw [none_yet, List.append_nil] at whole ⊢
        exact ⟨List.append_cancel_right whole, rfl⟩
      · rintro ⟨whole, none_yet⟩
        rw [none_yet, List.append_nil] at whole ⊢
        rw [← whole]
    constructor
    · rintro ⟨ordered, once, checked⟩
      rw [pseudoFields_pseudo kind] at once ordered
      rw [regularFields_pseudo kind] at ordered
      obtain ⟨ordered, none_yet⟩ := last.mp ordered
      obtain ⟨once, new⟩ := apart.mp once
      obtain ⟨checked, passed⟩ := split.mp checked
      exact ⟨⟨ordered, once, checked⟩, passed, fun _ => ⟨none_yet, new⟩⟩
    · rintro ⟨⟨ordered, once, checked⟩, passed, first⟩
      obtain ⟨none_yet, new⟩ := first rfl
      refine ⟨?_, ?_, split.mpr ⟨checked, passed⟩⟩
      · rw [pseudoFields_pseudo kind, regularFields_pseudo kind]
        exact last.mpr ⟨ordered, none_yet⟩
      · rw [pseudoFields_pseudo kind]
        exact apart.mpr ⟨once, new⟩
  | false =>
    constructor
    · rintro ⟨ordered, once, checked⟩
      rw [pseudoFields_regular kind] at once ordered
      rw [regularFields_regular kind, ← List.append_assoc] at ordered
      obtain ⟨checked, passed⟩ := split.mp checked
      exact ⟨⟨List.append_cancel_right ordered, once, checked⟩, passed, nofun⟩
    · rintro ⟨⟨ordered, once, checked⟩, passed, -⟩
      refine ⟨?_, ?_, split.mpr ⟨checked, passed⟩⟩
      · rw [pseudoFields_regular kind, regularFields_regular kind, ← List.append_assoc, ← ordered]
      · rw [pseudoFields_regular kind]
        exact once

end Snoc

/-- A validator that reads field by field lets a list through when it is sectioned. -/
theorem Sectioned.foldlM {π : Type} {check : Header → Bool} {read : List Header → π}
    {step : π → Header → Except ErrorCode π}
    (spec : ∀ headers h p, Sectioned check headers → (step (read headers) h = .ok p ↔
      (check h ∧ (isPseudo h.name → regularFields headers = [] ∧ value? h.name headers = none)) ∧
        p = read (headers ++ [h]))) (headers : List Header) (p : π) :
    headers.foldlM step (read []) = .ok p ↔ Sectioned check headers ∧ p = read headers := by
  induction headers using List.reverseRecOn generalizing p with
  | nil => exact ⟨fun h => ⟨.nil, (Except.ok.inj h).symm⟩, fun h => congrArg _ h.2.symm⟩
  | append_singleton headers h ih =>
    have one : ∀ q, [h].foldlM step q = step q h := by simp
    rw [List.foldlM_append, Sectioned.snoc]
    simp only [one]
    constructor
    · intro done
      cases sofar : headers.foldlM step (read []) with
      | error e => rw [sofar] at done; cases done
      | ok q =>
        obtain ⟨sectioned, rfl⟩ := (ih q).mp sofar
        rw [sofar] at done
        obtain ⟨passed, rfl⟩ := (spec headers h p sectioned).mp done
        exact ⟨⟨sectioned, passed⟩, rfl⟩
    · rintro ⟨⟨sectioned, passed⟩, rfl⟩
      rw [(ih _).mpr ⟨sectioned, rfl⟩]
      exact (spec headers h _ sectioned).mpr ⟨passed, rfl⟩

/-! ## Requests -/

def requestPseudo : List Bytes := [":method", ":scheme", ":authority", ":path"].map ascii

/-- What a request's validator asks of each field. -/
def requestCheck (h : Header) : Bool :=
  if isPseudo h.name then requestPseudo.contains h.name
  else !badFieldName h.name && !(h.name = ascii "te" && h.value ≠ ascii "trailers")

namespace RequestHead

/-- What the validator has seen of a list. -/
def Partial.read (headers : List Header) : Partial where
  method := value? (ascii ":method") headers
  scheme := value? (ascii ":scheme") headers
  authority := value? (ascii ":authority") headers
  path := value? (ascii ":path") headers
  fields := regularFields headers
  seenRegular := !(regularFields headers).isEmpty

theorem Partial.read_pseudo {headers : List Header} {h : Header} (pseudo : isPseudo h.name) :
    Partial.read (headers ++ [h]) =
      { Partial.read headers with
        method := value? (ascii ":method") (headers ++ [h])
        scheme := value? (ascii ":scheme") (headers ++ [h])
        authority := value? (ascii ":authority") (headers ++ [h])
        path := value? (ascii ":path") (headers ++ [h]) } := by
  unfold Partial.read
  rw [regularFields_pseudo pseudo]

theorem step_read (headers : List Header) (h : Header) (p : Partial) :
    (Partial.read headers).step h = .ok p ↔
      (requestCheck h ∧
        (isPseudo h.name → regularFields headers = [] ∧ value? h.name headers = none)) ∧
        p = Partial.read (headers ++ [h]) := by
  unfold Partial.step requestCheck
  cases kind : isPseudo h.name with
  | true =>
    rw [if_pos rfl, if_pos rfl]
    by_cases none_yet : regularFields headers = []
    · have unseen : ¬ (Partial.read headers).seenRegular = true := by simp [Partial.read, none_yet]
      rw [if_neg unseen, Partial.read_pseudo kind]
      -- A pseudo-header fills the slot of its name and leaves the others.
      have slot : ∀ (put : Option Bytes → Partial) {old : Option Bytes},
          old = value? h.name headers → h.name ∈ requestPseudo →
          (((fill old h.value).map put = .ok p) ↔
            (requestPseudo.contains h.name ∧
              (true = true → regularFields headers = [] ∧ value? h.name headers = none)) ∧
              p = put (value? h.name (headers ++ [h]))) := by
        rintro put old rfl known
        cases new : value? h.name headers with
        | none =>
          rw [value?_snoc_new new]
          refine ⟨fun done => ?_, fun done => congrArg _ done.2.symm⟩
          exact ⟨⟨List.contains_iff_mem.mpr known, fun _ => ⟨none_yet, rfl⟩⟩,
            (Except.ok.inj done).symm⟩
        | some v => exact ⟨nofun, fun done => nomatch (done.1.2 rfl).2⟩
      have others : ∀ n, h.name ≠ ascii n →
          value? (ascii n) (headers ++ [h]) = value? (ascii n) headers := fun n => value?_snoc_ne
      by_cases method : h.name = ascii ":method"
      · have known : h.name ∈ requestPseudo := by rw [method]; decide
        rw [if_pos method, others ":scheme" (by rw [method]; decide),
          others ":authority" (by rw [method]; decide), others ":path" (by rw [method]; decide), ← method]
        exact slot (fun v => { Partial.read headers with method := v }) 
          (congrArg (value? · headers) method.symm) known
      rw [if_neg method]
      by_cases scheme : h.name = ascii ":scheme"
      · have known : h.name ∈ requestPseudo := by rw [scheme]; decide
        rw [if_pos scheme, others ":method" (by rw [scheme]; decide),
          others ":authority" (by rw [scheme]; decide), others ":path" (by rw [scheme]; decide), ← scheme]
        exact slot (fun v => { Partial.read headers with scheme := v }) 
          (congrArg (value? · headers) scheme.symm) known
      rw [if_neg scheme]
      by_cases authority : h.name = ascii ":authority"
      · have known : h.name ∈ requestPseudo := by rw [authority]; decide
        rw [if_pos authority, others ":method" (by rw [authority]; decide),
          others ":scheme" (by rw [authority]; decide), others ":path" (by rw [authority]; decide), ← authority]
        exact slot (fun v => { Partial.read headers with authority := v }) 
          (congrArg (value? · headers) authority.symm) known
      rw [if_neg authority]
      by_cases path : h.name = ascii ":path"
      · have known : h.name ∈ requestPseudo := by rw [path]; decide
        rw [if_pos path, others ":method" (by rw [path]; decide),
          others ":scheme" (by rw [path]; decide), others ":authority" (by rw [path]; decide), ← path]
        exact slot (fun v => { Partial.read headers with path := v }) 
          (congrArg (value? · headers) path.symm) known
      rw [if_neg path]
      have unknown : requestPseudo.contains h.name = false := by
        simp [requestPseudo, method, scheme, authority, path]
      exact ⟨nofun, fun done => absurd done.1.1 (by rw [unknown]; exact Bool.false_ne_true)⟩
    · have seen : (Partial.read headers).seenRegular = true := by simp [Partial.read, none_yet]
      rw [if_pos seen]
      exact ⟨nofun, fun done => absurd (done.1.2 rfl).1 none_yet⟩
  | false =>
    rw [if_neg Bool.false_ne_true, if_neg Bool.false_ne_true]
    cases bad : badFieldName h.name with
    | true =>
      rw [if_pos rfl]
      exact ⟨nofun, fun done => nomatch done.1.1⟩
    | false =>
      rw [if_neg Bool.false_ne_true]
      cases te : (h.name = ascii "te" && h.value ≠ ascii "trailers" : Bool) with
      | true =>
        rw [if_pos rfl]
        exact ⟨nofun, fun done => nomatch done.1.1⟩
      | false =>
        have kept : Partial.read (headers ++ [h]) =
            { Partial.read headers with
              fields := regularFields headers ++ [h]
              seenRegular := true } := by
          have other : ∀ n, isPseudo n → value? n (headers ++ [h]) = value? n headers :=
            fun n pseudo => value?_snoc_ne fun same => by rw [same, pseudo] at kind; cases kind
          unfold Partial.read
          rw [regularFields_regular kind, other _ rfl, other _ rfl, other _ rfl, other _ rfl]
          simp
        rw [if_neg Bool.false_ne_true, kept]
        exact ⟨fun done => ⟨⟨rfl, nofun⟩, (Except.ok.inj done).symm⟩,
          fun done => congrArg _ done.2.symm⟩

/-- What a request's validator asks of a list. -/
structure Shaped (headers : List Header) : Prop extends Sectioned requestCheck headers where
  method : (value? (ascii ":method") headers).isSome
  scheme : (value? (ascii ":scheme") headers).isSome
  path : ∃ path, value? (ascii ":path") headers = some path ∧ path ≠ []

/-- A list is accepted when it is shaped, and every part of the head is a part of it. -/
theorem fromHeaders_ok {headers : List Header} {head : RequestHead} :
    fromHeaders headers = .ok head ↔ Shaped headers ∧
      value? (ascii ":method") headers = some head.method ∧
      value? (ascii ":scheme") headers = some head.scheme ∧
      value? (ascii ":authority") headers = head.authority ∧
      value? (ascii ":path") headers = some head.path ∧ head.fields = regularFields headers := by
  have reads := Sectioned.foldlM (fun headers h p _ => step_read headers h p) headers
  have start : (⟨none, none, none, none, [], false⟩ : Partial) = Partial.read [] := rfl
  unfold fromHeaders
  rw [start]
  cases sofar : headers.foldlM Partial.step (Partial.read []) with
  | error e =>
    refine ⟨nofun, fun done => ?_⟩
    rw [(reads _).mpr ⟨done.1.toSectioned, rfl⟩] at sofar
    cases sofar
  | ok p =>
    obtain ⟨sectioned, rfl⟩ := (reads p).mp sofar
    dsimp only [bind, Except.bind, Partial.read]
    obtain ⟨method, scheme, authority, path, fields⟩ := head
    split
    · rename_i m s q hm hs hq
      split
      · rename_i empty
        refine ⟨nofun, fun done => ?_⟩
        obtain ⟨q', hq', full⟩ := done.1.path
        rw [hq] at hq'
        exact absurd (Option.some.inj hq' ▸ empty) full
      · rename_i full
        constructor
        · intro done
          cases done
          exact ⟨⟨sectioned, by rw [hm]; rfl, by rw [hs]; rfl, _, hq, full⟩, hm, hs, rfl, hq, rfl⟩
        · rintro ⟨-, hm', hs', ha, hq', hf⟩
          rw [hm] at hm'
          rw [hs] at hs'
          rw [hq] at hq'
          cases hm'
          cases hs'
          cases hq'
          rw [ha, ← hf]
    · rename_i lacks
      refine ⟨nofun, fun done => ?_⟩
      exact absurd done.2.2.2.2.1 fun hq => lacks _ _ _ done.2.1 done.2.2.1 hq

end RequestHead

/-! ## Responses -/

/-- `:status` as it is read: a number of `u16` from 100 to 599. -/
def parseStatus (value : Bytes) : Option Nat :=
  (parseUint (2 ^ 16 - 1) value).filter fun s => 100 ≤ s && s ≤ 599

/-- What a response's validator asks of each field. -/
def responseCheck (h : Header) : Bool :=
  if isPseudo h.name then h.name = ascii ":status" && (parseStatus h.value).isSome
  else !badFieldName h.name

namespace ResponseHead

/-- What the validator has seen of a list. -/
def Partial.read (headers : List Header) : Partial where
  status := (value? (ascii ":status") headers).bind parseStatus
  fields := regularFields headers
  seenRegular := !(regularFields headers).isEmpty

theorem step_read (headers : List Header) (h : Header) (p : Partial)
    (sectioned : Sectioned responseCheck headers) :
    (Partial.read headers).step h = .ok p ↔
      (responseCheck h ∧
        (isPseudo h.name → regularFields headers = [] ∧ value? h.name headers = none)) ∧
        p = Partial.read (headers ++ [h]) := by
  unfold Partial.step responseCheck
  cases kind : isPseudo h.name with
  | true =>
    rw [if_pos rfl, if_pos rfl]
    by_cases first : regularFields headers = [] ∧ h.name = ascii ":status"
    · obtain ⟨none_yet, status⟩ := first
      have unseen : (Partial.read headers).seenRegular = false := by
        simp [Partial.read, none_yet]
      rw [if_neg (by simp [unseen, status])]
      cases new : value? h.name headers with
      | some v =>
        have read : (Partial.read headers).status.isSome := by
          obtain ⟨g, hg, rfl⟩ := Option.map_eq_some_iff.mp new
          have named : g.name = h.name := by simpa using List.find?_some hg
          have checked := sectioned.checked g (List.mem_of_find?_eq_some hg)
          rw [responseCheck, named, if_pos kind, Bool.and_eq_true] at checked
          show ((value? (ascii ":status") headers).bind parseStatus).isSome
          rw [← status, new]
          exact checked.2
        rw [if_pos read]
        exact ⟨nofun, fun done => nomatch (done.1.2 rfl).2⟩
      | none =>
        have unread : ¬ (Partial.read headers).status.isSome = true := by
          rw [status] at new
          simp [Partial.read, new]
        rw [if_neg unread]
        cases parsed : parseStatus h.value with
        | none =>
          unfold parseStatus at parsed
          rw [parsed]
          exact ⟨nofun, fun done => by simp at done⟩
        | some code =>
          have filled : Partial.read (headers ++ [h]) =
              { Partial.read headers with status := some code } := by
            unfold Partial.read
            rw [← status, value?_snoc_new new, regularFields_pseudo kind, Option.bind_some, parsed]
          unfold parseStatus at parsed
          rw [parsed, filled]
          exact ⟨fun done => ⟨⟨by simp [status], fun _ => ⟨none_yet, rfl⟩⟩,
            (Except.ok.inj done).symm⟩, fun done => congrArg _ done.2.symm⟩
    · have refused : ((Partial.read headers).seenRegular || h.name ≠ ascii ":status") = true := by
        by_cases none_yet : regularFields headers = []
        · have other : h.name ≠ ascii ":status" := fun status => first ⟨none_yet, status⟩
          simp [other]
        · simp [Partial.read, none_yet]
      rw [if_pos refused]
      refine ⟨nofun, fun done => absurd ⟨(done.1.2 rfl).1, ?_⟩ first⟩
      exact of_decide_eq_true (Bool.and_eq_true _ _ ▸ done.1.1).1
  | false =>
    rw [if_neg Bool.false_ne_true, if_neg Bool.false_ne_true]
    cases bad : badFieldName h.name with
    | true =>
      rw [if_pos rfl]
      exact ⟨nofun, fun done => nomatch done.1.1⟩
    | false =>
      have kept : Partial.read (headers ++ [h]) =
          { Partial.read headers with
            fields := regularFields headers ++ [h]
            seenRegular := true } := by
        have other : value? (ascii ":status") (headers ++ [h]) = value? (ascii ":status") headers :=
          value?_snoc_ne fun same => by rw [same] at kind; cases kind
        unfold Partial.read
        rw [regularFields_regular kind, other]
        simp
      rw [if_neg Bool.false_ne_true, kept]
      exact ⟨fun done => ⟨⟨rfl, nofun⟩, (Except.ok.inj done).symm⟩,
        fun done => congrArg _ done.2.symm⟩

/-- What a response's validator asks of a list. -/
structure Shaped (headers : List Header) : Prop extends Sectioned responseCheck headers where
  status : (value? (ascii ":status") headers).isSome

theorem fromHeaders_ok {headers : List Header} {head : ResponseHead} :
    fromHeaders headers = .ok head ↔ Shaped headers ∧
      (value? (ascii ":status") headers).bind parseStatus = some head.status ∧
      head.fields = regularFields headers := by
  have reads := Sectioned.foldlM step_read headers
  have start : (⟨none, [], false⟩ : Partial) = Partial.read [] := rfl
  unfold fromHeaders
  rw [start]
  cases sofar : headers.foldlM Partial.step (Partial.read []) with
  | error e =>
    refine ⟨nofun, fun done => ?_⟩
    rw [(reads _).mpr ⟨done.1.toSectioned, rfl⟩] at sofar
    cases sofar
  | ok p =>
    obtain ⟨sectioned, rfl⟩ := (reads p).mp sofar
    dsimp only [bind, Except.bind, Partial.read]
    obtain ⟨status, fields⟩ := head
    cases parsed : (value? (ascii ":status") headers).bind parseStatus with
    | none => exact ⟨nofun, fun done => nomatch done.2.1⟩
    | some code =>
      have present : (value? (ascii ":status") headers).isSome := by
        obtain ⟨v, hv, -⟩ := Option.bind_eq_some_iff.mp parsed
        rw [hv]
        rfl
      constructor
      · intro done
        cases done
        exact ⟨⟨sectioned, present⟩, rfl, rfl⟩
      · rintro ⟨-, hs, hf⟩
        cases hs
        rw [← hf]

end ResponseHead

/-! ## Trailers -/

/-- What the validator of trailers asks of each field. -/
def trailerCheck (h : Header) : Bool := !isPseudo h.name && !badFieldName h.name

theorem validateTrailers_ok {headers : List Header} :
    validateTrailers headers = .ok () ↔ ∀ h ∈ headers, trailerCheck h := by
  unfold validateTrailers
  split
  · rename_i bad
    obtain ⟨h, hmem, hbad⟩ := List.any_eq_true.mp bad
    refine ⟨nofun, fun all => ?_⟩
    have passed := all h hmem
    rw [trailerCheck, ← Bool.not_or, hbad] at passed
    cases passed
  · rename_i good
    refine ⟨fun _ h hmem => ?_, fun _ => rfl⟩
    rw [trailerCheck, ← Bool.not_or]
    cases hbad : (isPseudo h.name || badFieldName h.name) with
    | true => exact absurd (List.any_eq_true.mpr ⟨h, hmem, hbad⟩) good
    | false => rfl

/-! ## The grammar -/

/-- The octets of a regular field's name: none in 0x00-0x20, `A`-`Z` or 0x7f-0xff. -/
def isNameOctet (b : UInt8) : Bool := 0x20 < b && b < 0x7f && !isAsciiUppercase b

/-- The octets of a value: no NUL, CR or LF. -/
def isValueOctet (b : UInt8) : Bool := b ≠ 0 && b ≠ 0x0d && b ≠ 0x0a

/-- A field section of HTTP/2 that allows these pseudo-headers. -/
structure Wellformed (allowed : List Bytes) (headers : List Header) : Prop where
  names : ∀ h ∈ regularFields headers, h.name ≠ [] ∧ ∀ b ∈ h.name, isNameOctet b
  values : ∀ h ∈ headers, ∀ b ∈ h.value, isValueOctet b
  ordered : headers = pseudoFields headers ++ regularFields headers
  once : ((pseudoFields headers).map (·.name)).Nodup
  known : ∀ h ∈ pseudoFields headers, h.name ∈ allowed
  status : ∀ h ∈ headers, h.name = ascii ":status" →
    h.value.length = 3 ∧ ∀ b ∈ h.value, isAsciiDigit b
  hop : ∀ h ∈ headers, h.name ∉ connectionSpecific

/-- The octets and the lengths that no validator looks at are in order. -/
structure Plain (headers : List Header) : Prop where
  names : ∀ h ∈ regularFields headers, ∀ b ∈ h.name, 0x20 < b ∧ b < 0x7f
  values : ∀ h ∈ headers, ∀ b ∈ h.value, isValueOctet b
  status : ∀ h ∈ headers, h.name = ascii ":status" → h.value.length = 3

theorem Wellformed.plain {allowed : List Bytes} {headers : List Header}
    (wf : Wellformed allowed headers) : Plain headers where
  names h hmem b hb := by
    have octet := (wf.names h hmem).2 b hb
    simp only [isNameOctet, Bool.and_eq_true, decide_eq_true_eq] at octet
    exact octet.1
  values := wf.values
  status h hmem named := (wf.status h hmem named).1

/-- A number from 100 to 599 that is read from three octets is three digits. -/
theorem digits_of_parseStatus {v : Bytes} (parsed : (parseStatus v).isSome) (three : v.length = 3) :
    ∀ b ∈ v, isAsciiDigit b := by
  obtain ⟨s, hs⟩ := Option.isSome_iff_exists.mp parsed
  obtain ⟨read, bounds⟩ := Option.filter_eq_some_iff.mp hs
  have large : 100 ≤ s := of_decide_eq_true (Bool.and_eq_true _ _ ▸ bounds).1
  obtain ⟨ds, spelled, -, digits, rfl, -⟩ := parseUint_eq_some.mp read
  obtain rfl | rfl := spelled
  · exact digits
  · -- Two digits make no number of three.
    obtain ⟨a, b, rfl⟩ := List.length_eq_two.mp (Nat.succ.inj three)
    have small : numeral [a, b] < 10 ^ 2 := numeral_lt digits
    omega

theorem badFieldName_eq_false {name : Bytes} (good : badFieldName name = false) :
    name ≠ [] ∧ (∀ b ∈ name, isAsciiUppercase b = false) ∧ name ∉ connectionSpecific := by
  simp only [badFieldName, Bool.or_eq_false_iff, decide_eq_false_iff_not, List.any_eq_false,
    List.contains_eq_mem] at good
  exact ⟨good.1.1, fun b hb => Bool.eq_false_iff.mpr (good.1.2 b hb), good.2⟩

theorem pseudo_not_hop {name : Bytes} (pseudo : isPseudo name) : name ∉ connectionSpecific := by
  have regular : ∀ n ∈ connectionSpecific, isPseudo n = false := by decide
  intro hop
  rw [regular name hop] at pseudo
  cases pseudo

/-- What the validators check, and what they do not, make the grammar. -/
theorem Plain.wellformed {headers : List Header} {check : Header → Bool} {allowed : List Bytes}
    (plain : Plain headers) (sectioned : Sectioned check headers)
    (regular : ∀ h, isPseudo h.name = false → check h → badFieldName h.name = false)
    (pseudo : ∀ h, isPseudo h.name → check h → h.name ∈ allowed ∧
      (h.name = ascii ":status" → (parseStatus h.value).isSome)) :
    Wellformed allowed headers where
  names h hmem := by
    obtain ⟨mem, kind⟩ := List.mem_filter.mp hmem
    have kind : isPseudo h.name = false := by simpa using kind
    obtain ⟨full, lower, -⟩ := badFieldName_eq_false (regular h kind (sectioned.checked h mem))
    refine ⟨full, fun b hb => ?_⟩
    obtain ⟨above, below⟩ := plain.names h hmem b hb
    simp [isNameOctet, above, below, lower b hb]
  values := plain.values
  ordered := sectioned.ordered
  once := sectioned.once
  known h hmem := by
    obtain ⟨mem, kind⟩ := List.mem_filter.mp hmem
    exact (pseudo h kind (sectioned.checked h mem)).1
  status h hmem named := by
    have kind : isPseudo h.name := by rw [named]; decide
    have parsed := (pseudo h kind (sectioned.checked h hmem)).2 named
    exact ⟨plain.status h hmem named, digits_of_parseStatus parsed (plain.status h hmem named)⟩
  hop h hmem := by
    cases kind : isPseudo h.name with
    | true => exact pseudo_not_hop kind
    | false => exact (badFieldName_eq_false (regular h kind (sectioned.checked h hmem))).2.2

theorem Sectioned.of_trailers {headers : List Header} (all : ∀ h ∈ headers, trailerCheck h) :
    Sectioned trailerCheck headers := by
  have regular : ∀ h ∈ headers, isPseudo h.name = false := fun h hmem => by
    have passed := all h hmem
    rw [trailerCheck, Bool.and_eq_true, Bool.not_eq_true'] at passed
    exact passed.1
  have none_pseudo : pseudoFields headers = [] :=
    List.filter_eq_nil_iff.mpr fun h hmem => by simp [regular h hmem]
  have all_regular : regularFields headers = headers :=
    List.filter_eq_self.mpr fun h hmem => by simp [regular h hmem]
  refine ⟨?_, ?_, all⟩
  · rw [none_pseudo, all_regular, List.nil_append]
  · rw [none_pseudo]
    exact List.nodup_nil

theorem RequestHead.Shaped.accepted {headers : List Header} (shaped : Shaped headers) :
    ∃ head, fromHeaders headers = .ok head := by
  obtain ⟨method, hm⟩ := Option.isSome_iff_exists.mp shaped.method
  obtain ⟨scheme, hs⟩ := Option.isSome_iff_exists.mp shaped.scheme
  obtain ⟨path, hp, -⟩ := shaped.path
  exact ⟨⟨method, scheme, _, path, _⟩, fromHeaders_ok.mpr ⟨shaped, hm, hs, rfl, hp, rfl⟩⟩

theorem value?_eq_some {name value : Bytes} {headers : List Header}
    (found : value? name headers = some value) : ∃ h ∈ headers, h.name = name ∧ h.value = value := by
  obtain ⟨h, hh, rfl⟩ := Option.map_eq_some_iff.mp found
  exact ⟨h, List.mem_of_find?_eq_some hh, by simpa using List.find?_some hh, rfl⟩

theorem responseCheck_status {h : Header} (pseudo : isPseudo h.name) (passed : responseCheck h) :
    h.name = ascii ":status" ∧ (parseStatus h.value).isSome := by
  rw [responseCheck, if_pos pseudo, Bool.and_eq_true, decide_eq_true_eq] at passed
  exact passed

theorem ResponseHead.Shaped.accepted {headers : List Header} (shaped : Shaped headers) :
    ∃ head, fromHeaders headers = .ok head := by
  obtain ⟨v, hv⟩ := Option.isSome_iff_exists.mp shaped.status
  obtain ⟨h, hmem, named, rfl⟩ := value?_eq_some hv
  have kind : isPseudo h.name := by rw [named]; decide
  obtain ⟨status, parsed⟩ :=
    Option.isSome_iff_exists.mp (responseCheck_status kind (shaped.checked h hmem)).2
  refine ⟨⟨status, _⟩, fromHeaders_ok.mpr ⟨shaped, ?_, rfl⟩⟩
  rw [hv]
  exact parsed

/-- Each validator keeps to the grammar exactly on the lists that, if they pass its checks,
    have no octet out of place in a regular name or a value and three octets of `:status`. An
    accepted head always has the regular fields as they came. -/
theorem fields_validated_iff (headers : List Header) :
    ((∀ head, RequestHead.fromHeaders headers = .ok head →
        Wellformed requestPseudo headers ∧ head.fields = regularFields headers) ↔
      (RequestHead.Shaped headers → Plain headers)) ∧
    ((∀ head, ResponseHead.fromHeaders headers = .ok head →
        Wellformed [ascii ":status"] headers ∧ head.fields = regularFields headers) ↔
      (ResponseHead.Shaped headers → Plain headers)) ∧
    ((validateTrailers headers = .ok () → Wellformed [] headers) ↔
      ((∀ h ∈ headers, trailerCheck h) → Plain headers)) := by
  refine ⟨⟨fun ok shaped => ?_, fun plain head accepted => ?_⟩,
    ⟨fun ok shaped => ?_, fun plain head accepted => ?_⟩,
    ⟨fun ok passed => (ok (validateTrailers_ok.mpr passed)).plain, fun plain accepted => ?_⟩⟩
  · obtain ⟨head, accepted⟩ := shaped.accepted
    exact (ok head accepted).1.plain
  · obtain ⟨shaped, -, -, -, -, fields⟩ := RequestHead.fromHeaders_ok.mp accepted
    refine ⟨(plain shaped).wellformed shaped.toSectioned (fun h kind passed => ?_)
      fun h kind passed => ?_, fields⟩
    · rw [requestCheck, kind, if_neg Bool.false_ne_true, Bool.and_eq_true,
        Bool.not_eq_true'] at passed
      exact passed.1
    · rw [requestCheck, if_pos kind] at passed
      have known : h.name ∈ requestPseudo := List.contains_iff_mem.mp passed
      refine ⟨known, fun status => ?_⟩
      rw [status] at known
      exact absurd known (by decide)
  · obtain ⟨head, accepted⟩ := shaped.accepted
    exact (ok head accepted).1.plain
  · obtain ⟨shaped, -, fields⟩ := ResponseHead.fromHeaders_ok.mp accepted
    refine ⟨(plain shaped).wellformed shaped.toSectioned (fun h kind passed => ?_)
      fun h kind passed => ?_, fields⟩
    · rw [responseCheck, kind, if_neg Bool.false_ne_true, Bool.not_eq_true'] at passed
      exact passed
    · obtain ⟨named, parsed⟩ := responseCheck_status kind passed
      exact ⟨by rw [named]; exact List.mem_singleton_self _, fun _ => parsed⟩
  · have passed := validateTrailers_ok.mp accepted
    refine (plain passed).wellformed (.of_trailers passed) (fun h kind good => ?_)
      fun h kind good => ?_
    · rw [trailerCheck, Bool.and_eq_true, Bool.not_eq_true', Bool.not_eq_true'] at good
      exact good.2
    · rw [trailerCheck, kind] at good
      cases good

/-- A value with CR LF in it. -/
def split : List Header :=
  [.new (ascii ":method") (ascii "GET"), .new (ascii ":scheme") (ascii "https"),
    .new (ascii ":path") (ascii "/"), .new (ascii "x") [0x61, 0x0d, 0x0a, 0x62]]

/-- A request with CR LF in a value is accepted. -/
theorem accepts_split : ¬ ∀ headers head, RequestHead.fromHeaders headers = .ok head →
    Wellformed requestPseudo headers := by
  intro all
  have accepted : (RequestHead.fromHeaders split).isOk = true := by decide +kernel
  cases read : RequestHead.fromHeaders split with
  | error e => rw [read] at accepted; cases accepted
  | ok head =>
    have octets := (all split head read).values _ (List.mem_of_getElem? (i := 3) rfl) 0x0d
    exact absurd (octets (by decide)) (by decide)

end H2Proxy
