import H2Proxy.Hpack.Arena

/-
  The nibble-driven Huffman decoder (`DecodeTable` in `core/src/hpack/huffman.rs`).

  The inner nodes of the arena are numbered as states, and the table says what each state does
  with four bits at a time. The table can be built, and decodes every string as the code tree
  does, bit by bit (`table_decode`).
-/

namespace H2Proxy

namespace Huffman

/-! ## The arena and the tree -/

namespace Tree

/-- The subtree at the end of a path. -/
def sub : Tree → List Bool → Option Tree
  | t, [] => some t
  | node zero one, b :: path => (if b then one else zero).sub path
  | _, _ :: _ => none

/-- No branch is missing. -/
def full : Tree → Bool
  | empty => false
  | leaf _ => true
  | node zero one => zero.full && one.full

def size : Tree → Nat
  | node zero one => zero.size + one.size + 1
  | _ => 1

theorem build_full : build.full = true := by decide +kernel

theorem sub_nil (t : Tree) : t.sub [] = some t := by cases t <;> rfl

theorem sub_append (t : Tree) (path rest : List Bool) :
    t.sub (path ++ rest) = (t.sub path).bind (·.sub rest) := by
  induction path generalizing t with
  | nil => rfl
  | cons b path ih =>
    cases t with
    | node zero one => exact ih _
    | empty | leaf sym => rfl

theorem walk_eq_sub (t : Tree) (path : List Bool) (sym : Nat) :
    t.walk path = some sym ↔ t.sub path = some (leaf sym) := by
  induction path generalizing t with
  | nil => cases t <;> simp [walk, sub]
  | cons b path ih =>
    cases t with
    | node zero one => exact ih _
    | empty | leaf s => simp [walk, sub]

theorem full_of_sub {t t' : Tree} {path : List Bool} (h : t.full = true)
    (hsub : t.sub path = some t') : t'.full = true := by
  induction path generalizing t with
  | nil => cases hsub; exact h
  | cons b path ih =>
    cases t with
    | node zero one =>
      have hboth : zero.full = true ∧ one.full = true := by simpa [full] using h
      refine ih ?_ hsub
      cases b
      · exact hboth.1
      · exact hboth.2
    | empty | leaf s => cases hsub

/-- Under every subtree there is a symbol. -/
theorem exists_leaf {t : Tree} (h : t.full = true) : ∃ path sym, t.sub path = some (leaf sym) := by
  induction t with
  | empty => cases h
  | leaf sym => exact ⟨[], sym, rfl⟩
  | node zero one ihz _ =>
    have hboth : zero.full = true ∧ one.full = true := by simpa [full] using h
    obtain ⟨path, sym, hpath⟩ := ihz hboth.1
    exact ⟨false :: path, sym, hpath⟩

end Tree

/-- The arena has a node wherever the tree has a subtree. -/
theorem locate_isSome_iff {a : Arena} (ha : a.Spells words) (path : List Bool) :
    (a.locate path).isSome ↔ (Tree.build.sub path).isSome := by
  rw [ha.locates]
  constructor
  · rintro (rfl | ⟨w, hw, rest, hrest⟩)
    · rfl
    · have hsub := (Tree.walk_eq_sub _ _ _).mp (walk_of_mem_words hw)
      rw [← hrest, Tree.sub_append] at hsub
      cases hp : Tree.build.sub path with
      | none => rw [hp] at hsub; cases hsub
      | some t => rfl
  · intro h
    obtain ⟨t, ht⟩ := Option.isSome_iff_exists.mp h
    obtain ⟨rest, sym, hrest⟩ := Tree.exists_leaf (Tree.full_of_sub Tree.build_full ht)
    refine .inr ⟨(path ++ rest, sym), mem_words_iff.mpr ?_, List.prefix_append _ _⟩
    rw [Tree.walk_eq_sub, Tree.sub_append, ht]
    exact hrest

/-- An arena node stands for a subtree. -/
structure Stands (a : Arena) (node : Nat) (path : List Bool) (t : Tree) : Prop where
  node : a.locate path = some node
  tree : Tree.build.sub path = some t

namespace Stands

variable {a : Arena} {node : Nat} {path : List Bool} {t : Tree}

theorem root (a : Arena) : Stands a 0 [] Tree.build := ⟨rfl, rfl⟩

theorem symbolOf (ha : a.Spells words) (h : Stands a node path t) (sym : Nat) :
    a.symbolOf node = some sym ↔ t = .leaf sym := by
  rw [ha.symbols path node h.node, mem_words_iff, Tree.walk_eq_sub, h.tree]
  exact Option.some_inj

theorem child (ha : a.Spells words) {zero one : Tree} (h : Stands a node path (.node zero one)) (bit : Bool) :
    ∃ next, a.child node bit = some next ∧
      Stands a next (path ++ [bit]) (if bit then one else zero) := by
  have htree : Tree.build.sub (path ++ [bit]) = some (if bit then one else zero) := by
    rw [Tree.sub_append, h.tree]
    cases bit <;> rfl
  have hsome := (locate_isSome_iff ha (path ++ [bit])).mpr (by rw [htree]; rfl)
  rw [Arena.locate_concat, h.node, Option.bind_some] at hsome
  obtain ⟨next, hnext⟩ := Option.isSome_iff_exists.mp hsome
  refine ⟨next, hnext, ⟨?_, htree⟩⟩
  rw [Arena.locate_concat, h.node]
  exact hnext

/-- A leaf has no branches. -/
theorem child_leaf (ha : a.Spells words) {sym : Nat} (h : Stands a node path (.leaf sym)) (bit : Bool) :
    a.child node bit = none := by
  have hnone : a.locate (path ++ [bit]) = none := by
    rw [← Option.not_isSome_iff_eq_none, locate_isSome_iff ha, Tree.sub_append, h.tree]
    cases bit <;> nofun
  rwa [Arena.locate_concat, h.node, Option.bind_some] at hnone

theorem full (h : Stands a node path t) : t.full = true := Tree.full_of_sub Tree.build_full h.tree

/-- A node stands for one subtree. -/
theorem unique (ha : a.Spells words) {path' : List Bool} {t' : Tree} (h : Stands a node path t)
    (h' : Stands a node path' t') : path = path' ∧ t = t' := by
  obtain rfl := ha.sound.inj h.node h'.node
  exact ⟨rfl, Option.some.inj (h.tree.symm.trans h'.tree)⟩

end Stands

/-! ## The table -/

/-- What consuming one nibble from a given state does; `next` is `none` for `INVALID`. -/
structure Transition where
  next : Option Nat
  emit : Option UInt8
deriving DecidableEq

/-- The bits of a nibble, most significant first. -/
def nibbleBits (nibble : Nat) : List Bool := [3, 2, 1, 0].map nibble.testBit

/-- An outcome of following bits down the tree. -/
inductive Landing
  | eos
  | on (node : Nat) (emit : Option UInt8)
deriving DecidableEq

namespace Arena

/-- Bits followed from a node, starting over at each symbol; `none` where a branch is missing. -/
def follow (a : Arena) : List Bool → Nat → Option UInt8 → Option Landing
  | [], node, emit => some (.on node emit)
  | bit :: bits, node, emit =>
    match a.child node bit with
    | none => none
    | some next =>
      match a.symbolOf next with
      | some sym => if sym = eos then some .eos else a.follow bits 0 (some (UInt8.ofNat sym))
      | none => a.follow bits next emit

/-- The inner nodes, in the order of their states. -/
def nodes (a : Arena) : List Nat :=
  (List.range a.children.length).filter fun node => a.kids node ≠ (none, none)

def stateOf (a : Arena) (node : Nat) : Option Nat :=
  if node ∈ a.nodes then some (a.nodes.idxOf node) else none

def transition (a : Arena) (start nibble : Nat) : Option Transition :=
  (a.follow (nibbleBits nibble) start none).map fun
    | .eos => ⟨none, none⟩
    | .on node emit => ⟨a.stateOf node, emit⟩

/-- The depth of each state and whether its path is all ones, from a stack of nodes yet to be
    seen; `none` where a node that is no leaf has no state, or `fuel` runs out. -/
def descend (a : Arena) : Nat → List (Nat × Nat × Bool) → List Nat × List Bool →
    Option (List Nat × List Bool)
  | _, [], marks => some marks
  | 0, _ :: _, _ => none
  | fuel + 1, (node, depth, allOnes) :: stack, marks =>
    if (a.symbolOf node).isSome then a.descend fuel stack marks
    else
      match a.stateOf node with
      | none => none
      | some state =>
        -- Branch 1 was pushed last.
        let below := [true, false].filterMap fun branch =>
          (a.child node branch).map (·, depth + 1, allOnes && branch)
        a.descend fuel (below ++ stack) (marks.1.set state depth, marks.2.set state allOnes)

end Arena

structure DecodeTable where
  states : List (List Transition)
  depth : List Nat
  eosPrefix : List Bool

namespace DecodeTable

/-- The table of a code tree; `none` where the source would panic. -/
def ofArena (a : Arena) : Option DecodeTable :=
  if a.stateOf 0 ≠ some 0 then none
  else do
    let states ← a.nodes.mapM fun start => (List.range 16).mapM (a.transition start)
    let blank := (List.replicate a.nodes.length 0, List.replicate a.nodes.length false)
    -- A tree with so many leaves has fewer than twice as many nodes.
    let (depth, eosPrefix) ← a.descend (2 * codes.length) [(0, 0, true)] blank
    some { states, depth, eosPrefix }

def build : Option DecodeTable := ofArena Arena.build

/-- Nibbles from a state: `none` where the table is indexed out of range, and inside it the
    state reached with the octets emitted, or `none` for `INVALID`. -/
def run (t : DecodeTable) : Nat → List Nat → Option (Option (Nat × Bytes))
  | state, [] => some (some (state, []))
  | state, nibble :: nibbles =>
    match t.states[state]?.bind (·[nibble]?) with
    | none => none
    | some transition =>
      match transition.next with
      | none => some none
      | some next =>
        (t.run next nibbles).map (·.map fun (state, out) => (state, transition.emit.toList ++ out))

/-- The nibbles of an octet, the high one first. -/
def nibbles (b : UInt8) : List Nat := [b.toNat >>> 4, b.toNat &&& 0x0f]

/-- `huffman::decode`; `none` where the source would panic. -/
def decode (t : DecodeTable) (src : Bytes) : Option (Except String Bytes) :=
  match t.run 0 (src.flatMap nibbles) with
  | none => none
  | some none => some (.error "huffman string contains the EOS symbol")
  | some (some (state, out)) =>
    if state ≠ 0 then do
      let depth ← t.depth[state]?
      let eosPrefix ← t.eosPrefix[state]?
      if depth > 7 then
        some (.error s!"huffman padding is {depth} bits, more than the 7 allowed")
      else if !eosPrefix then some (.error "huffman padding is not a prefix of the EOS code")
      else some (.ok out)
    else some (.ok out)

end DecodeTable

/-! ## Nibbles and bits -/

namespace State

variable {zero one : Tree} {depth : Nat} {eosPrefix b : Bool}

theorem bit_leaf {sym : Nat} (h : (if b then one else zero) = .leaf sym) :
    bit ⟨.node zero one, depth, eosPrefix⟩ b =
      if sym = eos then none else some (.root, some (UInt8.ofNat sym)) := by
  unfold bit
  dsimp only
  rw [h]

theorem bit_node {zero' one' : Tree} (h : (if b then one else zero) = .node zero' one') :
    bit ⟨.node zero one, depth, eosPrefix⟩ b =
      some (⟨.node zero' one', depth + 1, eosPrefix && b⟩, none) := by
  unfold bit
  dsimp only
  rw [h]

theorem bits_cons {s s' : State} {sym : Option UInt8} (h : s.bit b = some (s', sym))
    (bs : List Bool) : s.bits (b :: bs) = (s'.bits bs).map fun r => (r.1, sym.toList ++ r.2) := by
  rw [bits, h]
  simp only [Option.bind_eq_bind, Option.bind_some]
  cases s'.bits bs <;> rfl

end State

namespace Arena

variable {a : Arena} {node next : Nat} {b : Bool}

theorem follow_symbol {sym : Nat} (hchild : a.child node b = some next)
    (hsym : a.symbolOf next = some sym) (bits : List Bool) (emit : Option UInt8) :
    a.follow (b :: bits) node emit =
      if sym = eos then some .eos else a.follow bits 0 (some (UInt8.ofNat sym)) := by
  rw [follow, hchild]
  dsimp only
  rw [hsym]

theorem follow_inner (hchild : a.child node b = some next) (hsym : a.symbolOf next = none)
    (bits : List Bool) (emit : Option UInt8) :
    a.follow (b :: bits) node emit = a.follow bits next emit := by
  rw [follow, hchild]
  dsimp only
  rw [hsym]

end Arena

/-- An inner node is where a decoding state is. -/
def Sits (a : Arena) (node : Nat) (s : State) : Prop :=
  ∃ path zero one, Stands a node path (.node zero one) ∧
    s = ⟨.node zero one, path.length, path.all id⟩

theorem build_node : ∃ zero one, Tree.build = .node zero one := by
  have hhead : Tree.build.walk [] = none := by decide +kernel
  have hfull := Tree.build_full
  cases h : Tree.build with
  | empty =>
    rw [h] at hfull
    cases hfull
  | leaf sym =>
    rw [h] at hhead
    cases hhead
  | node zero one => exact ⟨zero, one, rfl⟩

theorem sits_root (a : Arena) : Sits a 0 .root := by
  obtain ⟨zero, one, hbuild⟩ := build_node
  refine ⟨[], zero, one, hbuild ▸ .root a, ?_⟩
  unfold State.root
  rw [hbuild]
  rfl

variable {a : Arena}

/-- One bit takes the arena and the tree to the same place, with the same symbol. -/
theorem Sits.bit (ha : a.Spells words) {node : Nat} {s : State} (h : Sits a node s) (b : Bool) :
    (s.bit b = none ∧ ∀ bits emit, a.follow (b :: bits) node emit = some .eos) ∨
      ∃ s' out next, s.bit b = some (s', out) ∧ Sits a next s' ∧ ∀ bits emit,
        a.follow (b :: bits) node emit = a.follow bits next (out.or emit) := by
  obtain ⟨path, zero, one, hstands, rfl⟩ := h
  obtain ⟨next, hchild, hnext⟩ := hstands.child ha b
  cases ht : if b then one else zero with
  | empty =>
    have hfull := hnext.full
    rw [ht] at hfull
    cases hfull
  | leaf sym =>
    have hfollow := Arena.follow_symbol hchild ((hnext.symbolOf ha sym).mpr ht)
    have hbit : State.bit ⟨.node zero one, path.length, path.all id⟩ b = _ := State.bit_leaf ht
    by_cases heos : sym = eos
    · simp only [if_pos heos] at hfollow hbit
      exact .inl ⟨hbit, hfollow⟩
    · simp only [if_neg heos] at hfollow hbit
      exact .inr ⟨.root, some (UInt8.ofNat sym), 0, hbit, sits_root a, hfollow⟩
  | node zero' one' =>
    have hsym : a.symbolOf next = none := by
      cases hs : a.symbolOf next with
      | none => rfl
      | some sym => cases ht.symm.trans ((hnext.symbolOf ha sym).mp hs)
    have hfollow := Arena.follow_inner hchild hsym
    refine .inr ⟨_, none, next, State.bit_node ht, ⟨path ++ [b], zero', one', ht ▸ hnext, ?_⟩,
      hfollow⟩
    simp

/-- Following bits in the arena is decoding them in the tree; only the last symbol is kept. -/
theorem Sits.follow (ha : a.Spells words) {node : Nat} {s : State} (h : Sits a node s)
    (bits : List Bool) (emit : Option UInt8) :
    (s.bits bits = none ∧ a.follow bits node emit = some .eos) ∨
      ∃ s' out next, s.bits bits = some (s', out) ∧ Sits a next s' ∧
        a.follow bits node emit = some (.on next (out.getLast?.or emit)) := by
  induction bits generalizing node s emit with
  | nil => exact .inr ⟨s, [], node, rfl, h, rfl⟩
  | cons b bits ih =>
    obtain ⟨hbit, hfollow⟩ | ⟨s₁, sym, next, hbit, hnext, hfollow⟩ := h.bit ha b
    · exact .inl ⟨by rw [State.bits, hbit]; rfl, hfollow bits emit⟩
    · rw [hfollow, State.bits_cons hbit]
      obtain ⟨hnone, heos⟩ | ⟨s₂, out, last, hsome, hlast, hon⟩ := ih hnext (sym.or emit)
      · exact .inl ⟨by rw [hnone]; rfl, heos⟩
      · refine .inr ⟨s₂, sym.toList ++ out, last, by rw [hsome]; rfl, hlast, ?_⟩
        rw [hon]
        cases sym with
        | none => rfl
        | some sym =>
          cases out with
          | nil => rfl
          | cons o out => simp [List.getLast?_cons]

/-- No symbol is completed in so many bits. -/
def State.silent : Nat → State → Bool
  | 0, _ => true
  | n + 1, s => [false, true].all fun b => (s.bit b).all fun r => r.2.isNone && r.1.silent n

theorem State.silent_bits {n : Nat} {bits : List Bool} (h : bits.length ≤ n) {s s' : State}
    {out : Bytes} (hs : s.silent n = true) (hbits : s.bits bits = some (s', out)) : out = [] := by
  induction bits generalizing n s out with
  | nil =>
    cases hbits
    rfl
  | cons b bits ih =>
    cases n with
    | zero => exact absurd h (Nat.not_succ_le_zero _)
    | succ n =>
      have hb : (s.bit b).all fun r => r.2.isNone && r.1.silent n := by
        have hboth := List.all_eq_true.mp hs
        cases b
        · exact hboth false (by simp)
        · exact hboth true (by simp)
      rw [State.bits] at hbits
      cases hbit : s.bit b with
      | none => rw [hbit] at hbits; cases hbits
      | some r =>
        rw [hbit] at hb hbits
        rw [Option.all_some, Bool.and_eq_true, Option.isNone_iff_eq_none] at hb
        simp only [Option.bind_eq_bind, Option.bind_some] at hbits
        cases hrest : r.1.bits bits with
        | none => rw [hrest] at hbits; cases hbits
        | some r' =>
          rw [hrest, hb.1] at hbits
          cases hbits
          exact ih (Nat.le_of_succ_le_succ h) hb.2 hrest

theorem root_silent : State.root.silent 3 = true := by decide +kernel

theorem bit_emits {s s' : State} {b : Bool} {sym : UInt8} (h : s.bit b = some (s', some sym)) :
    s' = .root := by
  unfold State.bit at h
  split at h
  · split at h
    · split at h
      · cases h
      · exact (congrArg Prod.fst (Option.some.inj h)).symm
    · cases h
  · cases h

/-- At most one symbol is completed in four bits. -/
theorem bits_once {bits : List Bool} (h : bits.length ≤ 4) {s s' : State} {out : Bytes}
    (hbits : s.bits bits = some (s', out)) : out.length ≤ 1 := by
  induction bits generalizing s out with
  | nil =>
    cases hbits
    exact Nat.zero_le _
  | cons b bits ih =>
    rw [List.length_cons] at h
    rw [State.bits] at hbits
    cases hb : s.bit b with
    | none => rw [hb] at hbits; cases hbits
    | some r =>
      obtain ⟨s₁, sym⟩ := r
      simp only [hb, Option.bind_eq_bind, Option.bind_some] at hbits
      cases hrest : s₁.bits bits with
      | none => rw [hrest] at hbits; cases hbits
      | some r =>
        rw [hrest] at hbits
        cases hbits
        cases sym with
        | none => exact ih (by omega) hrest
        | some sym =>
          rw [bit_emits hb] at hrest
          rw [State.silent_bits (n := 3) (by omega) root_silent hrest]
          exact Nat.le_refl 1

/-! ## States -/

namespace Arena

theorem mem_nodes {a : Arena} {node : Nat} :
    node ∈ a.nodes ↔ node < a.children.length ∧ a.kids node ≠ (none, none) := by
  unfold nodes
  rw [List.mem_filter, List.mem_range, decide_eq_true_eq]

theorem nodes_nodup (a : Arena) : a.nodes.Nodup := List.nodup_range.filter _

theorem getElem?_nodes {a : Arena} {node state : Nat} :
    a.nodes[state]? = some node ↔ a.stateOf node = some state := by
  unfold stateOf
  constructor
  · intro h
    obtain ⟨hlt, hget⟩ := List.getElem?_eq_some_iff.mp h
    subst hget
    rw [if_pos (List.getElem_mem hlt), List.Nodup.idxOf_getElem a.nodes_nodup]
  · intro h
    split at h
    · rename_i hmem
      cases h
      rw [List.getElem?_eq_getElem (List.idxOf_lt_length_of_mem hmem), List.getElem_idxOf]
    · cases h

end Arena

theorem Sits.isState (ha : a.Spells words) {node : Nat} {s : State} (h : Sits a node s) :
    ∃ state, a.stateOf node = some state := by
  obtain ⟨path, zero, one, hstands, rfl⟩ := h
  obtain ⟨next, hchild, -⟩ := hstands.child ha true
  have hmem : node ∈ a.nodes := by
    refine Arena.mem_nodes.mpr ⟨Arena.child_lt hchild, fun hkids => ?_⟩
    unfold Arena.child at hchild
    rw [hkids] at hchild
    cases hchild
  unfold Arena.stateOf
  rw [if_pos hmem]
  exact ⟨_, rfl⟩

/-- Every state is an inner node of the tree. -/
theorem exists_sits (ha : a.Spells words) {node state : Nat} (h : a.stateOf node = some state)
    {path : List Bool} (hpath : a.locate path = some node) : ∃ s, Sits a node s := by
  have hsub := (locate_isSome_iff ha path).mp (by rw [hpath]; rfl)
  obtain ⟨t, ht⟩ := Option.isSome_iff_exists.mp hsub
  have hstands : Stands a node path t := ⟨hpath, ht⟩
  cases t with
  | node zero one => exact ⟨_, path, zero, one, hstands, rfl⟩
  | empty => cases hstands.full
  | leaf sym =>
    have hmem := List.mem_of_getElem? (Arena.getElem?_nodes.mpr h)
    have hkids := (Arena.mem_nodes.mp hmem).2
    have hzero := hstands.child_leaf ha false
    have hone := hstands.child_leaf ha true
    unfold Arena.child at hzero hone
    exact absurd (Prod.ext hzero hone) hkids

theorem stateOf_root (ha : a.Spells words) : a.stateOf 0 = some 0 := by
  obtain ⟨state, hstate⟩ := (sits_root a).isState ha
  have hmem := List.mem_of_getElem? (Arena.getElem?_nodes.mpr hstate)
  obtain ⟨hlt, hkids⟩ := Arena.mem_nodes.mp hmem
  refine Arena.getElem?_nodes.mp ?_
  unfold Arena.nodes
  obtain ⟨n, hn⟩ := Nat.exists_eq_add_of_lt hlt
  rw [hn, Nat.zero_add, List.range_succ_eq_map, List.filter_cons_of_pos (by simpa using hkids)]
  rfl

theorem stateOf_inj {node node' state : Nat} (h : a.stateOf node = some state)
    (h' : a.stateOf node' = some state) : node = node' :=
  Option.some.inj ((Arena.getElem?_nodes.mpr h).symm.trans (Arena.getElem?_nodes.mpr h'))

/-! ## What the table holds -/

/-- A nibble's transition is what its bits do, and emits at most one symbol. -/
theorem Sits.transition (ha : a.Spells words) {node : Nat} {s : State} (h : Sits a node s)
    (nibble : Nat) :
    (s.bits (nibbleBits nibble) = none ∧ a.transition node nibble = some ⟨none, none⟩) ∨
      ∃ s' next state emit, s.bits (nibbleBits nibble) = some (s', emit.toList) ∧ Sits a next s' ∧
        a.stateOf next = some state ∧ a.transition node nibble = some ⟨some state, emit⟩ := by
  unfold Arena.transition
  obtain ⟨hnone, heos⟩ | ⟨s', out, next, hsome, hnext, hon⟩ := h.follow ha (nibbleBits nibble) none
  · exact .inl ⟨hnone, by rw [heos]; rfl⟩
  · obtain ⟨state, hstate⟩ := hnext.isState ha
    have honce := bits_once (show (nibbleBits nibble).length ≤ 4 from Nat.le_refl 4) hsome
    refine .inr ⟨s', next, state, out.getLast?, ?_, hnext, hstate, ?_⟩
    · rw [hsome]
      match out, honce with
      | [], _ => rfl
      | [o], _ => rfl
    · rw [hon, ← hstate, Option.or_none]
      rfl

/-- A program that succeeds on every member of a list succeeds on the list. -/
theorem mapM_some {α β : Type} {f : α → Option β} {l : List α} (h : ∀ x ∈ l, (f x).isSome) :
    ∃ l', l.mapM f = some l' ∧ ∀ i : Nat, l'[i]? = l[i]?.bind f := by
  induction l with
  | nil => exact ⟨[], rfl, fun i => rfl⟩
  | cons x l ih =>
    obtain ⟨y, hy⟩ := Option.isSome_iff_exists.mp (h x List.mem_cons_self)
    obtain ⟨l', hl', hget⟩ := ih fun z hz => h z (List.mem_cons_of_mem x hz)
    refine ⟨y :: l', by rw [List.mapM_cons, hy, hl']; rfl, fun i => ?_⟩
    cases i with
    | zero => exact hy.symm
    | succ i => exact hget i

/-- The depth and the ones of a state's path are marked. -/
def Marked (state : Nat) (path : List Bool) (marks : List Nat × List Bool) : Prop :=
  marks.1[state]? = some path.length ∧ marks.2[state]? = some (path.all id)

/-- A subtree is seen before what is below it on the stack, and marks its own states. -/
theorem Stands.descend (ha : a.Spells words) {node : Nat} {path : List Bool} {t : Tree}
    (h : Stands a node path t) (fuel : Nat) (stack : List (Nat × Nat × Bool))
    (marks : List Nat × List Bool) (depths : marks.1.length = a.nodes.length)
    (ones : marks.2.length = a.nodes.length) :
    ∃ marks', a.descend (t.size + fuel) ((node, path.length, path.all id) :: stack) marks =
        a.descend fuel stack marks' ∧
      marks'.1.length = a.nodes.length ∧ marks'.2.length = a.nodes.length ∧
      ∀ state node' path', a.stateOf node' = some state → a.locate path' = some node' →
        (path <+: path' → Marked state path' marks') ∧
        (¬ path <+: path' → marks'.1[state]? = marks.1[state]? ∧ marks'.2[state]? = marks.2[state]?) := by
  induction t generalizing node path fuel stack marks with
  | empty => cases h.full
  | leaf sym =>
    refine ⟨marks, ?_, depths, ones, fun state node' path' hstate hpath' => ⟨?_, fun _ => ⟨rfl, rfl⟩⟩⟩
    · have hsize : (Tree.leaf sym).size + fuel = fuel + 1 := Nat.add_comm 1 fuel
      rw [hsize, Arena.descend, (h.symbolOf ha sym).mpr rfl]
      rfl
    · -- No inner node is at or below a leaf.
      rintro ⟨rest, rfl⟩
      obtain ⟨s, path'', zero, one, hstands, -⟩ := exists_sits ha hstate hpath'
      have hsub : Tree.build.sub (path ++ rest) = some (.node zero one) := by
        rw [ha.sound.inj hpath' hstands.node]
        exact hstands.tree
      rw [Tree.sub_append, h.tree, Option.bind_some] at hsub
      cases rest <;> cases hsub
  | node zero one ihz iho =>
    have hsits : Sits a node ⟨.node zero one, path.length, path.all id⟩ :=
      ⟨path, zero, one, h, rfl⟩
    obtain ⟨state₀, hstate₀⟩ := hsits.isState ha
    have hsym : a.symbolOf node = none := by
      cases hs : a.symbolOf node with
      | none => rfl
      | some sym => cases (h.symbolOf ha sym).mp hs
    obtain ⟨one₀, hone, hstandsOne⟩ := h.child ha true
    obtain ⟨zero₀, hzero, hstandsZero⟩ := h.child ha false
    have hlt : state₀ < a.nodes.length :=
      (List.getElem?_eq_some_iff.mp (Arena.getElem?_nodes.mpr hstate₀)).1
    have hdepth : ∀ b, (path ++ [b]).length = path.length + 1 := fun b => List.length_append
    have hall : ∀ b, (path ++ [b]).all id = (path.all id && b) := fun b => by simp
    obtain ⟨marks₁, hrun₁, depths₁, ones₁, hmarks₁⟩ := iho hstandsOne (zero.size + fuel)
      ((zero₀, path.length + 1, path.all id && false) :: stack)
      (marks.1.set state₀ path.length, marks.2.set state₀ (path.all id))
      (by rw [List.length_set]; exact depths) (by rw [List.length_set]; exact ones)
    obtain ⟨marks₂, hrun₂, depths₂, ones₂, hmarks₂⟩ := ihz hstandsZero fuel stack marks₁ depths₁ ones₁
    rw [hdepth, hall] at hrun₁ hrun₂
    refine ⟨marks₂, ?_, depths₂, ones₂, fun state node' path' hstate hpath' => ⟨?_, fun hnot => ?_⟩⟩
    · have hsize : (Tree.node zero one).size + fuel = one.size + (zero.size + fuel) + 1 := by
        rw [Tree.size]
        omega
      rw [hsize, Arena.descend, hsym, ← hrun₂, ← hrun₁, hstate₀]
      simp [hone, hzero]
    · rintro ⟨rest, rfl⟩
      obtain ⟨hin₂, hout₂⟩ := hmarks₂ state node' (path ++ rest) hstate hpath'
      obtain ⟨hin₁, hout₁⟩ := hmarks₁ state node' (path ++ rest) hstate hpath'
      cases rest with
      | nil =>
        rw [List.append_nil] at *
        obtain rfl := Option.some.inj (hpath'.symm.trans h.node)
        obtain rfl := Option.some.inj (hstate.symm.trans hstate₀)
        have hnot : ∀ b, ¬ path ++ [b] <+: path := by
          intro b hle
          have hlen := hle.length_le
          rw [hdepth] at hlen
          omega
        obtain ⟨hd, ho⟩ := hout₂ (hnot false)
        obtain ⟨hd', ho'⟩ := hout₁ (hnot true)
        refine ⟨(hd.trans hd').trans ?_, (ho.trans ho').trans ?_⟩
        · rw [List.getElem?_set_self (by rw [depths]; exact hlt)]
        · rw [List.getElem?_set_self (by rw [ones]; exact hlt)]
      | cons b rest =>
        have hsplit : path ++ b :: rest = path ++ [b] ++ rest := by simp
        have hother : ¬ path ++ [!b] <+: path ++ b :: rest := by
          rw [List.prefix_append_right_inj]
          rintro ⟨r, hr⟩
          cases b <;> cases hr
        cases b with
        | false => exact hin₂ ⟨rest, hsplit.symm⟩
        | true =>
          obtain ⟨hd, ho⟩ := hout₂ hother
          obtain ⟨hd', ho'⟩ := hin₁ ⟨rest, hsplit.symm⟩
          exact ⟨hd.trans hd', ho.trans ho'⟩
    · have hbelow : ∀ b, ¬ path ++ [b] <+: path' := fun b hle =>
        hnot ((List.prefix_append path [b]).trans hle)
      have hne : state₀ ≠ state := by
        rintro rfl
        obtain rfl := stateOf_inj hstate hstate₀
        obtain rfl := ha.sound.inj hpath' h.node
        exact hnot (List.prefix_refl _)
      obtain ⟨hd, ho⟩ := (hmarks₂ state node' path' hstate hpath').2 (hbelow false)
      obtain ⟨hd', ho'⟩ := (hmarks₁ state node' path' hstate hpath').2 (hbelow true)
      refine ⟨(hd.trans hd').trans ?_, (ho.trans ho').trans ?_⟩
      · rw [List.getElem?_set_ne hne]
      · rw [List.getElem?_set_ne hne]

namespace DecodeTable

/-- A table derived from an arena. -/
structure Tabulates (t : DecodeTable) (a : Arena) : Prop where
  states : ∀ state node nibble, a.stateOf node = some state → nibble < 16 →
    t.states[state]?.bind (·[nibble]?) = a.transition node nibble
  marks : ∀ state node path, a.stateOf node = some state → a.locate path = some node →
    Marked state path (t.depth, t.eosPrefix)

theorem build_size : 2 * codes.length = Tree.build.size + 1 := by decide +kernel

/-- The table of the code's arena can be built. -/
theorem ofArena_tabulates (ha : a.Spells words) : ∃ t, ofArena a = some t ∧ t.Tabulates a := by
  have hroot := stateOf_root ha
  have hrow : ∀ node ∈ a.nodes, ∀ nibble, (a.transition node nibble).isSome := by
    intro node hnode nibble
    obtain ⟨hlt, -⟩ := Arena.mem_nodes.mp hnode
    obtain ⟨path, hpath⟩ := ha.sound.onto node hlt
    have hstate : a.stateOf node = some (a.nodes.idxOf node) := if_pos hnode
    obtain ⟨s, hsits⟩ := exists_sits ha hstate hpath
    obtain ⟨-, h⟩ | ⟨_, _, _, _, -, -, -, h⟩ := hsits.transition ha nibble <;> rw [h] <;> rfl
  have hrows : ∀ node ∈ a.nodes, ((List.range 16).mapM (a.transition node)).isSome := by
    intro node hnode
    obtain ⟨row, hmap, -⟩ := mapM_some fun nibble (_ : nibble ∈ List.range 16) => hrow node hnode nibble
    rw [hmap]
    rfl
  obtain ⟨states, hstates, hget⟩ := mapM_some hrows
  obtain ⟨marks, hdescend, -, -, hmarks⟩ := (Stands.root a).descend ha 1 []
    (List.replicate a.nodes.length 0, List.replicate a.nodes.length false) (List.length_replicate ..)
    (List.length_replicate ..)
  have hdone : a.descend 1 [] marks = some marks := rfl
  rw [← build_size, hdone] at hdescend
  refine ⟨⟨states, marks.1, marks.2⟩, ?_, ?_, ?_⟩
  · unfold ofArena
    rw [if_neg (fun h => h hroot), hstates]
    simp only [Option.bind_eq_bind, Option.bind_some]
    rw [show ([(0, 0, true)] : List (Nat × Nat × Bool)) =
      [(0, ([] : List Bool).length, ([] : List Bool).all id)] from rfl, hdescend]
    rfl
  · intro state node nibble hstate hnibble
    have hnode := Arena.getElem?_nodes.mpr hstate
    dsimp only
    rw [hget, hnode, Option.bind_some]
    obtain ⟨row, hmap, hrowget⟩ := mapM_some fun nibble (_ : nibble ∈ List.range 16) =>
      hrow node (List.mem_of_getElem? hnode) nibble
    rw [hmap, Option.bind_some, hrowget, List.getElem?_range hnibble]
    rfl
  · intro state node path hstate hpath
    exact (hmarks state node path hstate hpath).1 List.nil_prefix

end DecodeTable

/-! ## Decoding -/

theorem octetBits_nibbles (b : UInt8) :
    octetBits b = (DecodeTable.nibbles b).flatMap nibbleBits := by
  have hmask : ∀ i < 4, (b.toNat &&& 0x0f).testBit i = b.toNat.testBit i := by
    intro i hi
    have hone : Nat.testBit 0x0f i = true := by
      have hall : ∀ i < 4, Nat.testBit 0x0f i = true := by decide
      exact hall i hi
    rw [Nat.testBit_and, hone, Bool.and_true]
  simp [octetBits, DecodeTable.nibbles, nibbleBits, Nat.testBit_shiftRight, hmask]

namespace DecodeTable

variable {t : DecodeTable}

/-- The table takes nibbles where the tree takes their bits. -/
theorem Tabulates.run (h : t.Tabulates a) (ha : a.Spells words) {node state : Nat} {s : State}
    (hs : Sits a node s) (hstate : a.stateOf node = some state) {nibbles : List Nat}
    (small : ∀ n ∈ nibbles, n < 16) :
    (s.bits (nibbles.flatMap nibbleBits) = none ∧ t.run state nibbles = some none) ∨
      ∃ s' out next state', s.bits (nibbles.flatMap nibbleBits) = some (s', out) ∧
        Sits a next s' ∧ a.stateOf next = some state' ∧
        t.run state nibbles = some (some (state', out)) := by
  induction nibbles generalizing node state s with
  | nil => exact .inr ⟨s, [], node, state, rfl, hs, hstate, rfl⟩
  | cons nibble nibbles ih =>
    have hentry := h.states state node nibble hstate (small nibble List.mem_cons_self)
    rw [List.flatMap_cons, bits_append, DecodeTable.run, hentry]
    obtain ⟨hnone, htrans⟩ | ⟨s₁, next, state₁, emit, hsome, hnext, hstate₁, htrans⟩ :=
      hs.transition ha nibble
    · exact .inl ⟨by rw [hnone]; rfl, by rw [htrans]⟩
    · rw [hsome, htrans, Option.bind_some]
      dsimp only
      obtain ⟨hrest, hrun⟩ | ⟨s₂, out, last, state₂, hrest, hlast, hstate₂, hrun⟩ :=
        ih hnext hstate₁ fun n hn => small n (List.mem_cons_of_mem nibble hn)
      · exact .inl ⟨by rw [hrest]; rfl, by rw [hrun]; rfl⟩
      · exact .inr ⟨s₂, emit.toList ++ out, last, state₂, by rw [hrest]; rfl, hlast, hstate₂,
          by rw [hrun]; rfl⟩

theorem nibbles_small (src : Bytes) : ∀ n ∈ src.flatMap nibbles, n < 16 := by
  intro n hn
  obtain ⟨b, -, hb⟩ := List.mem_flatMap.mp hn
  have hlt := b.toNat_lt
  unfold nibbles at hb
  obtain rfl | hb := List.mem_cons.mp hb
  · rw [Nat.shiftRight_eq_div_pow]
    omega
  · rw [List.mem_singleton.mp hb]
    exact Nat.lt_of_le_of_lt Nat.and_le_right (by decide)

/-- The table's decoder never panics, and decodes as the tree does. -/
theorem Tabulates.decode (h : t.Tabulates a) (ha : a.Spells words) (src : Bytes) :
    t.decode src = some (Huffman.decode src) := by
  have hbits : src.flatMap octetBits = (src.flatMap nibbles).flatMap nibbleBits := by
    rw [List.flatMap_assoc]
    exact congrArg (src.flatMap ·) (funext octetBits_nibbles)
  unfold DecodeTable.decode Huffman.decode
  rw [hbits]
  obtain ⟨hnone, hrun⟩ | ⟨s, out, node, state, hsome, hsits, hstate, hrun⟩ :=
    h.run ha (sits_root a) (stateOf_root ha) (nibbles_small src)
  · rw [hnone, hrun]
  · rw [hsome, hrun]
    obtain ⟨path, zero, one, hstands, rfl⟩ := hsits
    dsimp only
    by_cases hroot : state = 0
    · subst hroot
      obtain rfl := stateOf_inj hstate (stateOf_root ha)
      obtain ⟨rfl, -⟩ := hstands.unique ha (.root a)
      rfl
    · obtain ⟨hdepth, hones⟩ := h.marks state node path hstate hstands.node
      dsimp only at hdepth hones
      rw [if_pos hroot, hdepth, hones]
      simp only [Option.bind_eq_bind, Option.bind_some]
      split
      · rfl
      split <;> rfl

end DecodeTable

/-- The table can be built, and decodes every string as the code tree does, bit by bit. -/
theorem table_decode : ∃ t, DecodeTable.build = some t ∧
    ∀ src, t.decode src = some (decode src) := by
  obtain ⟨t, hbuild, htable⟩ := DecodeTable.ofArena_tabulates build_spells
  exact ⟨t, hbuild, htable.decode build_spells⟩

end Huffman

end H2Proxy
