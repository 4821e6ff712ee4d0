import H2Proxy.Lib.Machine
import H2Proxy.Hpack.RoundTrip

/-
  An encoder and a decoder over the life of a connection: any calls on the encoder, each
  block fed to the decoder as it is written.

  The encoder evicts at every resize and announces only the last bound, so its table can be
  behind the decoder's: `Lags`. A block round-trips all the same. The tables are equal again
  after every block unless a resize between two blocks evicted what the last one would keep.
-/

namespace H2Proxy

open Hpack

/-! ## One block -/

/-- Every field of a list fits, each coded after the ones before it. -/
def HpackEncoder.FitsAll (e : HpackEncoder) : List Header → Prop
  | [] => True
  | h :: hs => e.Fits h ∧ (e.encodeOne h).1.FitsAll hs

instance HpackEncoder.FitsAll.decidable (e : HpackEncoder) :
    (hs : List Header) → Decidable (e.FitsAll hs)
  | [] => .isTrue trivial
  | h :: hs => @instDecidableAnd _ _ _ (FitsAll.decidable (e.encodeOne h).1 hs)

theorem HpackEncoder.encodeAll_cons (e : HpackEncoder) (h : Header) (hs : List Header) :
    e.encodeAll (h :: hs) =
      (((e.encodeOne h).1.encodeAll hs).1,
        (e.encodeOne h).2 ++ ((e.encodeOne h).1.encodeAll hs).2) := rfl

theorem HpackEncoder.encodeAll_pending (e : HpackEncoder) (hs : List Header) :
    (e.encodeAll hs).1.pendingSizeUpdate = e.pendingSizeUpdate := by
  induction hs generalizing e with
  | nil => rfl
  | cons h hs ih =>
    rw [HpackEncoder.encodeAll_cons]
    dsimp only
    rw [ih, HpackEncoder.encodeOne_fst]

/-- A block leaves nothing to announce. -/
theorem HpackEncoder.encode_pending (e : HpackEncoder) (hs : List Header) :
    (e.encode hs).1.pendingSizeUpdate = none :=
  encodeAll_pending _ hs

/-- The bound pending does not matter to what fits. -/
theorem HpackEncoder.FitsAll.pending {e : HpackEncoder} {hs : List Header} (h : e.FitsAll hs)
    (pending : Option Nat) : ({ e with pendingSizeUpdate := pending }).FitsAll hs := by
  induction hs generalizing e with
  | nil => trivial
  | cons h' hs ih =>
    obtain ⟨hfits, hrest⟩ := h
    refine ⟨hfits, ?_⟩
    rw [HpackEncoder.encodeOne_fst] at hrest ⊢
    exact ih hrest

/-- A relation between the encoder's table and the decoder's that one field keeps. -/
structure Keeps (R : DynamicTable → DynamicTable → Prop) : Prop where
  front : ∀ {t t'}, R t t' → t.entries <+: t'.entries
  insert : ∀ {t t'} name value, R t t' → R (t.insert name value) (t'.insert name value)

theorem Keeps.after {R : DynamicTable → DynamicTable → Prop} (keeps : Keeps R)
    {t t' : DynamicTable} (h : R t t') (stored : Bool) (header : Header) :
    R (t.after stored header) (t'.after stored header) := by
  cases stored with
  | true => exact keeps.insert header.name header.value h
  | false => exact h

theorem Keeps.eq : Keeps (· = ·) where
  front := fun h => h ▸ List.prefix_rfl
  insert := fun _ _ h => by rw [h]

/-- The encoder's table is the newer part of the decoder's. -/
structure Lags (t t' : DynamicTable) : Prop where
  front : t.entries <+: t'.entries
  max_eq : t.maxSize = t'.maxSize
  wf : t.WF
  wf' : t'.WF

theorem Keeps.lags : Keeps Lags where
  front := Lags.front
  insert := fun {t t'} name value h => by
    obtain ⟨hwf, hmax⟩ := h.wf.insert name value
    obtain ⟨hwf', hmax'⟩ := h.wf'.insert name value
    refine ⟨?_, by rw [hmax, hmax', h.max_eq], hwf, hwf'⟩
    rw [DynamicTable.entries_insert h.wf, DynamicTable.entries_insert h.wf', h.max_eq]
    exact Budget.fit_mono (List.cons_prefix_cons.2 ⟨rfl, h.front⟩) t'.maxSize

/-- The decoding loop reads a coded list field by field, and keeps the relation. The induction
    is on the list; every field takes at least one octet, so the fuel lasts. -/
theorem decodeLoop_encodeAll {R : DynamicTable → DynamicTable → Prop} (keeps : Keeps R)
    {e : HpackEncoder} {d : HpackDecoder} (related : R e.table d.table) {hs : List Header}
    (fits : e.FitsAll hs) (p : HpackDecoder.Progress) {fuel : Nat}
    (hfuel : (e.encodeAll hs).2.length ≤ fuel) :
    ∃ table, HpackDecoder.decodeLoop fuel d p (e.encodeAll hs).2 =
        ({ d with table }, .ok (hs.foldl (·.field d.maxHeaderListSize) p)) ∧
      R (e.encodeAll hs).1.table table := by
  induction hs generalizing e d p fuel with
  | nil =>
    refine ⟨d.table, ?_, related⟩
    cases fuel <;> rfl
  | cons h hs ih =>
    obtain ⟨hfits, hrest⟩ := fits
    have hrep := representation_encodeOne (keeps.front related) hfits p.sizeUpdateAllowed
    have hne : (e.encodeOne h).2 ≠ [] := by
      intro hnil
      have hempty := hrep []
      rw [hnil] at hempty
      cases hempty
    have hpos : 0 < (e.encodeOne h).2.length := List.length_pos_iff.mpr hne
    rw [HpackEncoder.encodeAll_cons] at hfuel ⊢
    dsimp only at hfuel ⊢
    rw [List.length_append] at hfuel
    cases fuel with
    | zero => omega
    | succ fuel =>
      have hstep : R (e.encodeOne h).1.table (d.table.after (e.stores h) h) := by
        rw [HpackEncoder.encodeOne_fst]
        exact keeps.after related _ h
      obtain ⟨table, hloop, hR⟩ := ih (d := { d with table := d.table.after (e.stores h) h })
        hstep hrest (p.field d.maxHeaderListSize h)
        (show ((e.encodeOne h).1.encodeAll hs).2.length ≤ fuel by omega)
      refine ⟨table, ?_, hR⟩
      have hcur : (e.encodeOne h).2 ++ ((e.encodeOne h).1.encodeAll hs).2 ≠ [] := by
        simp [hne]
      rw [HpackDecoder.decodeLoop, if_neg hcur, hrep]
      exact hloop

/-- The decoder's table once it has read the announcement of a new bound. -/
def HpackDecoder.announced (d : HpackDecoder) : Option Nat → DynamicTable
  | some size => d.table.setMaxSize size
  | none => d.table

/-- What the decoder makes of what the loop collected. -/
def HpackDecoder.Progress.outcome (p : HpackDecoder.Progress) :
    Except HpackError (List Header) :=
  match p.oversized with
  | some limit => .error (.headerListTooLarge p.listSize limit)
  | none => .ok p.headers

/-- A block leaves the tables related if its announcement does. -/
theorem decode_encode_related {R : DynamicTable → DynamicTable → Prop} (keeps : Keeps R)
    {e : HpackEncoder} {d : HpackDecoder} (related : R e.table (d.announced e.pendingSizeUpdate))
    (hsize : ∀ size, e.pendingSizeUpdate = some size → size ≤ d.capacity ∧ size ≤ u32Max)
    {hs : List Header} (fits : e.FitsAll hs) :
    ∃ table, d.decode (e.encode hs).2 =
        ({ d with table },
          (hs.foldl (·.field d.maxHeaderListSize) HpackDecoder.Progress.start).outcome) ∧
      R (e.encode hs).1.table table := by
  unfold HpackEncoder.encode HpackDecoder.decode
  cases hp : e.pendingSizeUpdate with
  | none =>
    rw [hp] at related
    obtain ⟨table, hloop, hR⟩ := decodeLoop_encodeAll keeps (d := d)
      (e := { e with pendingSizeUpdate := none }) related (fits.pending none) .start
      (Nat.le_refl _)
    refine ⟨table, ?_, hR⟩
    dsimp only
    rw [List.nil_append, hloop]
    rfl
  | some size =>
    rw [hp] at related
    obtain ⟨hcapacity, hmax⟩ := hsize size hp
    obtain ⟨w, hw, octets, henc, hdec⟩ := decodeInt_encodeInt 5 0x20 (by decide) rfl hmax
    have hfuel : ({ e with pendingSizeUpdate := none }.encodeAll hs).2.length ≤
        (octets ++ ({ e with pendingSizeUpdate := none }.encodeAll hs).2).length := by
      rw [List.length_append]
      omega
    obtain ⟨table, hloop, hR⟩ := decodeLoop_encodeAll keeps
      (d := { d with table := d.table.setMaxSize size })
      (e := { e with pendingSizeUpdate := none }) related (fits.pending none) .start hfuel
    have hrep := HpackDecoder.representation_sizeUpdate hw
      (hdec ({ e with pendingSizeUpdate := none }.encodeAll hs).2) hcapacity
    have hstart : HpackDecoder.Progress.start.sizeUpdateAllowed = true := rfl
    refine ⟨table, ?_, hR⟩
    dsimp only
    rw [henc, List.cons_append, List.length_cons, HpackDecoder.decodeLoop,
      if_neg (List.cons_ne_nil _ _), hstart, hrep]
    dsimp only
    rw [hloop]
    rfl

/-- Without a limit nothing is dropped. -/
theorem foldl_field_none (hs : List Header) (p : HpackDecoder.Progress)
    (hp : p.oversized = none) :
    (hs.foldl (·.field none) p).outcome = .ok (p.headers ++ hs) := by
  induction hs generalizing p with
  | nil =>
    rw [List.append_nil]
    simp [HpackDecoder.Progress.outcome, hp]
  | cons h hs ih =>
    rw [List.foldl_cons, ih (p.field none h) hp]
    simp [HpackDecoder.Progress.field]

/-! ## The two ends -/

/-- The calls on the encoder. -/
inductive CodecCall
  | encode (headers : List Header)
  | setMaxTableSize (maxTableSize : Nat)
  | setHuffman (on : Bool)

/-- An encoder and the decoder its blocks are fed to. `least` is the smallest bound set since
    the last block; nothing reads it. -/
structure Codecs where
  encoder : HpackEncoder
  decoder : HpackDecoder
  least : Option Nat

namespace Codecs

def new (maxTableSize : Nat) (maxHeaderListSize : Option Nat) : Codecs :=
  ⟨.new maxTableSize, .new maxTableSize maxHeaderListSize, none⟩

def step : CodecCall → Codecs → Codecs
  | .encode headers, c =>
    let (encoder, block) := c.encoder.encode headers
    ⟨encoder, (c.decoder.decode block).1, none⟩
  | .setMaxTableSize n, c =>
    { c with encoder := c.encoder.setMaxTableSize n, least := some (min n (c.least.getD n)) }
  | .setHuffman on, c => { c with encoder := c.encoder.setHuffman on }

/-- Both ends start with a table of `maxTableSize`. -/
def machine (maxTableSize : Nat) (maxHeaderListSize : Option Nat) : Machine Codecs CodecCall :=
  ⟨(· = new maxTableSize maxHeaderListSize), step⟩

/-- The calls of a legal run: what is encoded fits, and no bound exceeds the decoder's
    capacity. -/
def Legal (c : Codecs) : CodecCall → Prop
  | .encode headers => c.encoder.FitsAll headers
  | .setMaxTableSize n => n ≤ c.decoder.capacity
  | .setHuffman _ => True

instance Legal.decidable (c : Codecs) : (call : CodecCall) → Decidable (c.Legal call)
  | .encode headers => HpackEncoder.FitsAll.decidable c.encoder headers
  | .setMaxTableSize n => Nat.decLe n c.decoder.capacity
  | .setHuffman _ => .isTrue trivial

/-- Legal, and a bound is an integer the codec can carry. -/
def Carried (c : Codecs) : CodecCall → Prop
  | .setMaxTableSize n => c.Legal (.setMaxTableSize n) ∧ n ≤ u32Max
  | call => c.Legal call

instance Carried.decidable (c : Codecs) : (call : CodecCall) → Decidable (c.Carried call)
  | .encode headers => Legal.decidable c (.encode headers)
  | .setMaxTableSize n => inferInstanceAs (Decidable (c.Legal (.setMaxTableSize n) ∧ n ≤ u32Max))
  | .setHuffman on => Legal.decidable c (.setHuffman on)

/-- What is to be announced is the encoder's bound, and the decoder will take it. -/
structure Announces (c : Codecs) : Prop where
  none_pending : c.encoder.pendingSizeUpdate = none →
    c.encoder.table.maxSize = c.decoder.table.maxSize
  pending : ∀ size, c.encoder.pendingSizeUpdate = some size →
    size = c.encoder.table.maxSize ∧ size ≤ c.decoder.capacity ∧ size ≤ u32Max

theorem Announces.setMaxTableSize {c : Codecs} (h : c.Announces) {n : Nat}
    (hcapacity : n ≤ c.decoder.capacity) (hmax : n ≤ u32Max) :
    (step (.setMaxTableSize n) c).Announces := by
  show Announces { c with encoder := c.encoder.setMaxTableSize n, least := _ }
  unfold HpackEncoder.setMaxTableSize
  split
  · refine ⟨fun hp => (by cases hp), fun size hp => ?_⟩
    cases hp
    exact ⟨rfl, hcapacity, hmax⟩
  · exact ⟨h.none_pending, h.pending⟩

/-! ## The round trip -/

/-- Between any two calls the encoder's table is the newer part of the decoder's, up to the
    bound that is still to be announced. -/
structure Behind (c : Codecs) : Prop where
  front : c.encoder.table.entries <+: c.decoder.table.entries
  wf : c.encoder.table.WF
  wf' : c.decoder.table.WF
  announces : c.Announces

theorem Behind.new (maxTableSize : Nat) (limit : Option Nat) :
    (new maxTableSize limit).Behind where
  front := List.prefix_rfl
  wf := .new maxTableSize
  wf' := .new maxTableSize
  announces := ⟨fun _ => rfl, fun size h => by cases h⟩

/-- Once the announcement is read, the bounds agree too. -/
theorem Behind.lags {c : Codecs} (h : c.Behind) :
    Lags c.encoder.table (c.decoder.announced c.encoder.pendingSizeUpdate) := by
  cases hp : c.encoder.pendingSizeUpdate with
  | none => exact ⟨h.front, h.announces.none_pending hp, h.wf, h.wf'⟩
  | some size =>
    obtain ⟨rfl, -, -⟩ := h.announces.pending size hp
    obtain ⟨hwf, hmax⟩ := h.wf'.setMaxSize c.encoder.table.maxSize
    refine ⟨?_, hmax.symm, h.wf, hwf⟩
    show _ <+: (c.decoder.table.setMaxSize c.encoder.table.maxSize).entries
    rw [DynamicTable.entries_setMaxSize h.wf', ← h.wf.fit_self]
    exact Budget.fit_mono h.front _

theorem Behind.step {c : Codecs} (h : c.Behind) {call : CodecCall} (hok : c.Carried call) :
    (step call c).Behind := by
  cases call with
  | encode hs =>
    obtain ⟨table, hdecode, hlags⟩ := decode_encode_related Keeps.lags h.lags
      (fun size hp => (h.announces.pending size hp).2)
      (show c.encoder.FitsAll hs from hok)
    show Behind ⟨(c.encoder.encode hs).1, (c.decoder.decode (c.encoder.encode hs).2).1, none⟩
    rw [hdecode]
    refine ⟨hlags.front, hlags.wf, hlags.wf', fun _ => hlags.max_eq, fun size hp => ?_⟩
    rw [HpackEncoder.encode_pending] at hp
    cases hp
  | setMaxTableSize n =>
    have hannounces := h.announces.setMaxTableSize hok.1 hok.2
    refine ⟨?_, ?_, h.wf', hannounces⟩
    · show (c.encoder.setMaxTableSize n).table.entries <+: _
      unfold HpackEncoder.setMaxTableSize
      split
      · show (c.encoder.table.setMaxSize n).entries <+: _
        rw [DynamicTable.entries_setMaxSize h.wf]
        exact (Budget.fit_prefix n _).trans h.front
      · exact h.front
    · show (c.encoder.setMaxTableSize n).table.WF
      unfold HpackEncoder.setMaxTableSize
      split
      · exact (h.wf.setMaxSize n).1
      · exact h.wf
  | setHuffman on => exact ⟨h.front, h.wf, h.wf', h.announces.none_pending, h.announces.pending⟩

theorem limit_step (call : CodecCall) (c : Codecs) :
    (step call c).decoder.maxHeaderListSize = c.decoder.maxHeaderListSize := by
  cases call with
  | encode hs => exact HpackDecoder.maxHeaderListSize_decode c.decoder _
  | setMaxTableSize n => rfl
  | setHuffman on => rfl

/-- Every block of a run decodes to the list it was encoded from. -/
theorem blocks_round_trip (maxTableSize : Nat) {c : Codecs}
    (h : (machine maxTableSize none).Reach Carried c) {hs : List Header}
    (fits : c.encoder.FitsAll hs) : (c.decoder.decode (c.encoder.encode hs).2).2 = .ok hs := by
  have hinv : c.Behind ∧ c.decoder.maxHeaderListSize = none := by
    refine h.invariant (I := fun c => c.Behind ∧ c.decoder.maxHeaderListSize = none) ?_ ?_
    · rintro c rfl
      exact ⟨.new maxTableSize none, rfl⟩
    · rintro c call ⟨hbehind, hlimit⟩ hok
      exact ⟨hbehind.step hok, (limit_step call c).trans hlimit⟩
  obtain ⟨hbehind, hlimit⟩ := hinv
  obtain ⟨table, hdecode, -⟩ := decode_encode_related Keeps.lags hbehind.lags
    (fun size hp => (hbehind.announces.pending size hp).2) fits
  rw [hdecode, hlimit]
  exact foldl_field_none hs .start rfl

/-- A small run: a field stored, the table emptied and opened again, the field once more. -/
def reopened : List CodecCall :=
  [.encode [.new [120] [121]], .setMaxTableSize 0, .setMaxTableSize 4096]

theorem blocks_round_trip_reopened :
    (((machine 4096 none).run (new 4096 none) reopened).decoder.decode
      (((machine 4096 none).run (new 4096 none) reopened).encoder.encode
        [.new [120] [121], ⟨[120], [122], true⟩]).2).2 =
          .ok [.new [120] [121], ⟨[120], [122], true⟩] :=
  blocks_round_trip 4096 (Machine.Reach.run (.init rfl) reopened (by decide +kernel)) (by decide +kernel)

/-- A bound past 32 bits is announced, and the decoder refuses the announcement. -/
theorem wide_bound_refused :
    ¬∀ (maxTableSize : Nat) (c : Codecs), (machine maxTableSize none).Reach Legal c →
      ∀ hs, c.encoder.FitsAll hs → (c.decoder.decode (c.encoder.encode hs).2).2 = .ok hs := by
  intro hall
  have hreach : (machine (2 ^ 32 + 1) none).Reach Legal
      ((machine (2 ^ 32 + 1) none).run (new (2 ^ 32 + 1) none) [.setMaxTableSize (2 ^ 32)]) :=
    Machine.Reach.run (.init rfl) _ (by decide +kernel)
  exact absurd (hall _ _ hreach [] trivial) (by decide +kernel)

/-! ## The tables after a block -/

/-- Carried, and no bound set since the last block evicts what the last of them keeps. -/
def Mirrored (c : Codecs) : CodecCall → Prop
  | .encode hs => c.Carried (.encode hs) ∧ ∀ least ∈ c.least,
      Budget.fit DynamicTable.cost least c.decoder.table.entries =
        Budget.fit DynamicTable.cost c.encoder.table.maxSize c.decoder.table.entries
  | call => c.Carried call

instance Mirrored.decidable (c : Codecs) : (call : CodecCall) → Decidable (c.Mirrored call)
  | .encode headers => inferInstanceAs (Decidable (c.Carried (.encode headers) ∧ ∀ least ∈ c.least,
      Budget.fit DynamicTable.cost least c.decoder.table.entries =
        Budget.fit DynamicTable.cost c.encoder.table.maxSize c.decoder.table.entries))
  | .setMaxTableSize n => Carried.decidable c (.setMaxTableSize n)
  | .setHuffman on => Carried.decidable c (.setHuffman on)

/-- Between two blocks the encoder has evicted to every bound set, the decoder to none. -/
structure Between (c : Codecs) : Prop where
  behind : c.Behind
  least_none : c.least = none → c.encoder.table.entries = c.decoder.table.entries
  least_some : ∀ least, c.least = some least →
    c.encoder.table.entries = Budget.fit DynamicTable.cost least c.decoder.table.entries

theorem Between.new (maxTableSize : Nat) (limit : Option Nat) :
    (new maxTableSize limit).Between :=
  ⟨.new maxTableSize limit, fun _ => rfl, fun least h => by cases h⟩

/-- The announcement of the last bound levels the tables exactly where the least bound set
    evicts no more than the last one. -/
theorem Between.announced_eq_iff {c : Codecs} (h : c.Between) :
    c.encoder.table = c.decoder.announced c.encoder.pendingSizeUpdate ↔
      ∀ least ∈ c.least,
        Budget.fit DynamicTable.cost least c.decoder.table.entries =
          Budget.fit DynamicTable.cost c.encoder.table.maxSize c.decoder.table.entries := by
  have hlags := h.behind.lags
  have hannounced : (c.decoder.announced c.encoder.pendingSizeUpdate).entries =
      Budget.fit DynamicTable.cost c.encoder.table.maxSize c.decoder.table.entries := by
    cases hp : c.encoder.pendingSizeUpdate with
    | none =>
      rw [h.behind.announces.none_pending hp, h.behind.wf'.fit_self]
      rfl
    | some size =>
      obtain ⟨rfl, -, -⟩ := h.behind.announces.pending size hp
      exact DynamicTable.entries_setMaxSize h.behind.wf' _
  constructor
  · intro heq least hleast
    rw [← h.least_some least hleast, ← hannounced, ← heq]
  · intro hsame
    refine hlags.wf.ext hlags.wf' ?_ hlags.max_eq
    rw [hannounced]
    cases hleast : c.least with
    | none => rw [← h.least_none hleast, h.behind.wf.fit_self]
    | some least => rw [h.least_some least hleast, hsame least hleast]

/-- After a block the tables are equal. -/
theorem Between.encode_eq {c : Codecs} (h : c.Between) {hs : List Header}
    (hok : c.Mirrored (.encode hs)) :
    (Codecs.step (.encode hs) c).encoder.table = (Codecs.step (.encode hs) c).decoder.table := by
  obtain ⟨table, hdecode, heq⟩ := decode_encode_related Keeps.eq
    (h.announced_eq_iff.mpr hok.2)
    (fun size hp => (h.behind.announces.pending size hp).2) hok.1
  show (c.encoder.encode hs).1.table = (c.decoder.decode (c.encoder.encode hs).2).1.table
  rw [hdecode]
  exact heq

theorem Between.step {c : Codecs} (h : c.Between) {call : CodecCall} (hok : c.Mirrored call) :
    (step call c).Between := by
  cases call with
  | encode hs =>
    have heq := h.encode_eq hok
    exact ⟨h.behind.step hok.1, fun _ => congrArg DynamicTable.entries heq,
      fun least hl => by cases hl⟩
  | setMaxTableSize n =>
    refine ⟨h.behind.step hok, fun hl => (by cases hl), fun least hl => ?_⟩
    cases hl
    have hold : Budget.fit DynamicTable.cost n c.encoder.table.entries =
        Budget.fit DynamicTable.cost (min n (c.least.getD n)) c.decoder.table.entries := by
      cases hleast : c.least with
      | none => rw [h.least_none hleast, Option.getD_none, Nat.min_self]
      | some least => rw [h.least_some least hleast, Budget.fit_fit, Option.getD_some]
    show (c.encoder.setMaxTableSize n).table.entries =
      Budget.fit DynamicTable.cost (min n (c.least.getD n)) c.decoder.table.entries
    rw [← hold]
    unfold HpackEncoder.setMaxTableSize
    split
    · exact DynamicTable.entries_setMaxSize h.behind.wf n
    · rename_i hsame
      rw [not_not.mp hsame, h.behind.wf.fit_self]
  | setHuffman on =>
    exact ⟨h.behind.step hok, h.least_none, h.least_some⟩

/-- In a run whose every block finds nothing evicted in passing, the tables are equal after
    each block: entries, order, size and bound. -/
theorem tables_equal (maxTableSize : Nat) (limit : Option Nat) {c : Codecs}
    (h : (machine maxTableSize limit).Reach Mirrored c) {hs : List Header}
    (hok : c.Mirrored (.encode hs)) :
    (step (.encode hs) c).encoder.table = (step (.encode hs) c).decoder.table := by
  have hbetween : c.Between := by
    refine h.invariant (I := Between) ?_ ?_
    · rintro c rfl
      exact .new maxTableSize limit
    · exact fun c call hinv hcall => hinv.step hcall
  exact hbetween.encode_eq hok

/-- Shrinking the bound to what the table holds and raising it again evicts nothing. -/
theorem tables_equal_regrown :
    let calls : List CodecCall :=
      [.encode [.new [120] [121]], .setMaxTableSize 34, .setMaxTableSize 4096]
    let c := (machine 4096 none).run (new 4096 none) calls
    (step (.encode [.new [120] [122]]) c).encoder.table =
      (step (.encode [.new [120] [122]]) c).decoder.table :=
  tables_equal 4096 none (Machine.Reach.run (.init rfl)
    [.encode [.new [120] [121]], .setMaxTableSize 34, .setMaxTableSize 4096]
    (by decide +kernel)) (by decide +kernel)

/-- A table emptied and opened again between two blocks is empty at the encoder only. -/
theorem tables_apart :
    ¬∀ (maxTableSize : Nat) (limit : Option Nat) (c : Codecs),
      (machine maxTableSize limit).Reach Carried c → ∀ hs, c.encoder.FitsAll hs →
        (step (.encode hs) c).encoder.table = (step (.encode hs) c).decoder.table := by
  intro hall
  have hreach : (machine 4096 none).Reach Carried
      ((machine 4096 none).run (new 4096 none) reopened) :=
    Machine.Reach.run (.init rfl) _ (by decide +kernel)
  exact absurd (hall _ _ _ hreach [] trivial) (by decide +kernel)

end Codecs

end H2Proxy
