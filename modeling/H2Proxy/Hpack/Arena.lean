import H2Proxy.Hpack.HuffmanCode
import Mathlib.Data.List.Induction

/-
  The arena of the Huffman code tree (`DecodeTable::build` in `core/src/hpack/huffman.rs`).

  The source lays the code tree out in two vectors, numbering nodes as they are made.
  `Arena.locate` reads the arena by paths from the root; `build_spells` says what the whole
  construction leaves: a node for every prefix of a code, and each symbol at its code's end.
-/

namespace H2Proxy

namespace Huffman

/-- The code tree as an arena: each node's branches, `none` where absent, and the symbols of
    the leaves. -/
structure Arena where
  children : List (Option Nat × Option Nat)
  symbol : List (Option Nat)

namespace Arena

/-- The root alone. -/
def new : Arena := ⟨[(none, none)], [none]⟩

def kids (a : Arena) (node : Nat) : Option Nat × Option Nat := a.children.getD node (none, none)

def child (a : Arena) (node : Nat) (bit : Bool) : Option Nat :=
  if bit then (a.kids node).2 else (a.kids node).1

def symbolOf (a : Arena) (node : Nat) : Option Nat := a.symbol.getD node none

/-- Down one branch, made where it is absent. -/
def branch (a : Arena) (node : Nat) (bit : Bool) : Arena × Nat :=
  match a.child node bit with
  | some next => (a, next)
  | none =>
    let next := a.children.length
    let kids := if bit then ((a.kids node).1, some next) else (some next, (a.kids node).2)
    (⟨a.children.set node kids ++ [(none, none)], a.symbol ++ [none]⟩, next)

/-- Put `sym` at the end of the `len` low bits of `code`, from `node` down. -/
def insert (code sym : Nat) : Nat → Nat → Arena → Arena
  | 0, node, a => { a with symbol := a.symbol.set node (some sym) }
  | len + 1, node, a =>
    let (a, node) := a.branch node (code.testBit len)
    insert code sym len node a

def build : Arena :=
  (codes.zipIdx).foldl (fun a c => a.insert c.1.1 c.2 c.1.2 0) new

/-! ## The arena by paths -/

/-- The node at the end of a path from the root. -/
def locate (a : Arena) (path : List Bool) : Option Nat := path.foldlM (a.child ·  ·) 0

theorem locate_concat (a : Arena) (path : List Bool) (bit : Bool) :
    a.locate (path ++ [bit]) = (a.locate path).bind (a.child · bit) := by
  unfold locate
  rw [List.foldlM_append]
  simp only [List.foldlM_cons, List.foldlM_nil, bind_pure]
  rfl

/-- Every path of the arena leads to a node of its own, and every node is at the end of one. -/
structure Sound (a : Arena) : Prop where
  sizes : a.symbol.length = a.children.length
  bound : ∀ {path node}, a.locate path = some node → node < a.children.length
  inj : ∀ {path path' node}, a.locate path = some node → a.locate path' = some node → path = path'
  onto : ∀ node, node < a.children.length → ∃ path, a.locate path = some node

theorem kids_of_length_le {a : Arena} {node : Nat} (h : a.children.length ≤ node) :
    a.kids node = (none, none) := List.getD_eq_default _ _ h

theorem child_new (node : Nat) (bit : Bool) : new.child node bit = none := by
  have hkids : new.kids node = (none, none) := by
    cases node with
    | zero => rfl
    | succ node => exact kids_of_length_le (Nat.le_add_left 1 node)
  unfold child
  rw [hkids]
  cases bit <;> rfl

theorem locate_new {path : List Bool} {node : Nat} (h : new.locate path = some node) :
    path = [] ∧ node = 0 := by
  induction path using List.reverseRecOn with
  | nil => exact ⟨rfl, (Option.some.inj h).symm⟩
  | append_singleton path bit _ =>
    rw [locate_concat] at h
    cases hp : new.locate path with
    | none => rw [hp] at h; cases h
    | some m =>
      rw [hp, Option.bind_some, child_new] at h
      cases h

theorem new_sound : new.Sound where
  sizes := rfl
  bound h := by rw [(locate_new h).2]; decide
  inj h h' := (locate_new h).1.trans (locate_new h').1.symm
  onto node h := by
    obtain rfl := Nat.lt_one_iff.mp h
    exact ⟨[], rfl⟩

theorem child_lt {a : Arena} {node next : Nat} {bit : Bool} (h : a.child node bit = some next) :
    node < a.children.length := by
  by_contra hle
  unfold child at h
  rw [kids_of_length_le (Nat.le_of_not_lt hle)] at h
  cases bit <;> cases h

/-- The branches after one was made. -/
theorem child_branch {a : Arena} {node : Nat} {bit : Bool} (hnode : node < a.children.length)
    (absent : a.child node bit = none) (m : Nat) (c : Bool) :
    (a.branch node bit).1.child m c =
      if m = node ∧ c = bit then some a.children.length else a.child m c := by
  unfold branch
  rw [absent]
  dsimp only
  unfold child kids at *
  dsimp only
  rw [List.getD_eq_getElem?_getD, List.getD_eq_getElem?_getD]
  by_cases hm : m < a.children.length
  · rw [List.getElem?_append_left (by simpa using hm), List.getElem?_set]
    by_cases heq : node = m
    · subst heq
      simp only [if_true, hnode, Option.getD_some, true_and]
      cases bit <;> cases c <;> simp
    · have heq' : m ≠ node := fun h => heq h.symm
      simp [heq, heq']
  · have hne : m ≠ node := by omega
    have hout : a.children.getD m (none, none) = (none, none) :=
      List.getD_eq_default _ _ (by omega)
    rw [hout, List.getElem?_append_right (by simp; omega)]
    simp only [List.length_set, hne, false_and, if_false]
    cases hk : m - a.children.length with
    | zero => rfl
    | succ k => rfl

/-- Going down a branch makes at most one node, at the end of its path. -/
theorem locate_branch {a : Arena} (ha : a.Sound) {path : List Bool} {node : Nat}
    (hpath : a.locate path = some node) (bit : Bool) (r : List Bool) :
    (a.branch node bit).1.locate r =
      if r = path ++ [bit] then some (a.branch node bit).2 else a.locate r := by
  cases habsent : a.child node bit with
  | some next =>
    have hsame : a.branch node bit = (a, next) := by
      unfold branch
      rw [habsent]
    rw [hsame]
    split
    · rename_i heq
      rw [heq, locate_concat, hpath]
      exact habsent
    · rfl
  | none =>
    have hnext : (a.branch node bit).2 = a.children.length := by
      unfold branch
      rw [habsent]
    have hchild := child_branch (ha.bound hpath) habsent
    rw [hnext]
    induction r using List.reverseRecOn with
    | nil => rw [if_neg (by simp)]; rfl
    | append_singleton r c ih =>
      rw [locate_concat, ih, locate_concat]
      by_cases hr : r = path ++ [bit]
      · have hne : r ++ [c] ≠ path ++ [bit] := by
          intro h
          have := congrArg List.length h
          rw [hr] at this
          simp at this
        have hgone : a.locate r = none := by
          rw [hr, locate_concat, hpath]
          exact habsent
        rw [if_pos hr, if_neg hne, hgone, Option.bind_some, Option.bind_none, hchild]
        have hfar : ¬ (a.children.length = node ∧ c = bit) := by
          have := ha.bound hpath
          omega
        rw [if_neg hfar]
        unfold child
        rw [kids_of_length_le (Nat.le_refl _)]
        cases c <;> rfl
      · rw [if_neg hr]
        cases hm : a.locate r with
        | none =>
          have hne : r ++ [c] ≠ path ++ [bit] := by
            intro h
            obtain ⟨rfl, -⟩ := List.append_inj' h rfl
            rw [hm] at hpath
            cases hpath
          rw [if_neg hne]
          rfl
        | some m =>
          rw [Option.bind_some, Option.bind_some, hchild]
          by_cases hmn : m = node
          · subst hmn
            obtain rfl := ha.inj hm hpath
            simp
          · have hrp : r ≠ path := by
              rintro rfl
              rw [hm] at hpath
              exact hmn (Option.some.inj hpath)
            have hne : r ++ [c] ≠ path ++ [bit] := fun h => hrp (List.append_inj' h rfl).1
            simp [hmn, hne]

theorem branch_symbolOf (a : Arena) (node : Nat) (bit : Bool) (m : Nat) :
    (a.branch node bit).1.symbolOf m = a.symbolOf m := by
  unfold branch
  split
  · rfl
  · unfold symbolOf
    rw [List.getD_eq_getElem?_getD, List.getD_eq_getElem?_getD]
    dsimp only
    by_cases hm : m < a.symbol.length
    · rw [List.getElem?_append_left hm]
    · rw [List.getElem?_append_right (by omega), List.getElem?_eq_none (by omega : a.symbol.length ≤ m)]
      cases m - a.symbol.length <;> rfl

theorem branch_length (a : Arena) (node : Nat) (bit : Bool) :
    a.children.length ≤ (a.branch node bit).1.children.length := by
  unfold branch
  split
  · exact Nat.le_refl _
  · simp

theorem branch_sound {a : Arena} (ha : a.Sound) {path : List Bool} {node : Nat}
    (hpath : a.locate path = some node) (bit : Bool) : (a.branch node bit).1.Sound := by
  have hlocate := locate_branch ha hpath bit
  have hnew : ∀ r, a.locate r = some (a.branch node bit).2 → r = path ++ [bit] := by
    intro r hr
    unfold branch at hr
    split at hr
    · rename_i next hnext
      refine ha.inj hr ?_
      rw [locate_concat, hpath]
      exact hnext
    · exact absurd (ha.bound hr) (Nat.lt_irrefl _)
  have hlast : (a.branch node bit).2 < (a.branch node bit).1.children.length := by
    unfold branch
    split
    · rename_i next hnext
      have hlast : a.locate (path ++ [bit]) = some next := by
        rw [locate_concat, hpath]
        exact hnext
      exact ha.bound hlast
    · simp
  refine ⟨?_, fun {r m} hr => ?_, fun {r r' m} hr hr' => ?_, fun m hm => ?_⟩
  · unfold branch
    split
    · exact ha.sizes
    · simp [ha.sizes]
  · rw [hlocate] at hr
    split at hr
    · cases hr
      exact hlast
    · exact Nat.lt_of_lt_of_le (ha.bound hr) (branch_length a node bit)
  · rw [hlocate] at hr hr'
    split at hr <;> split at hr'
    · rename_i h h'
      exact h.trans h'.symm
    · rename_i h _
      cases hr
      exact h.trans (hnew r' hr').symm
    · rename_i _ h'
      cases hr'
      exact (hnew r hr).trans h'.symm
    · exact ha.inj hr hr'
  · by_cases hold : m < a.children.length
    · obtain ⟨r, hr⟩ := ha.onto m hold
      refine ⟨r, ?_⟩
      rw [hlocate]
      split
      · rename_i heq
        subst heq
        rw [locate_concat, hpath, Option.bind_some] at hr
        unfold branch
        rw [hr]
      · exact hr
    · refine ⟨path ++ [bit], ?_⟩
      rw [hlocate, if_pos rfl]
      unfold branch at hm ⊢
      split at hm
      · exact absurd hm hold
      · have hlen : m = a.children.length := by
          simp only [List.length_append, List.length_set, List.length_singleton] at hm
          omega
        rw [hlen]

theorem isSome_locate_of_append {a : Arena} {p q : List Bool} (h : (a.locate (p ++ q)).isSome) :
    (a.locate p).isSome := by
  unfold locate at *
  rw [List.foldlM_append] at h
  cases hp : List.foldlM (m := Option) (a.child · ·) 0 p with
  | none => rw [hp] at h; exact h
  | some n => rfl

/-- The arena after a word was put in with its symbol. -/
structure Inserted (a a' : Arena) (word : List Bool) (sym : Nat) : Prop where
  sound : a'.Sound
  length : a.children.length ≤ a'.children.length
  locates : ∀ r, (a'.locate r).isSome ↔ (a.locate r).isSome ∨ r <+: word
  keeps : ∀ r m, a.locate r = some m → a'.locate r = some m
  fresh : ∀ r m, a'.locate r = some m → a.locate r = some m ∨ a.children.length ≤ m
  symbol : ∃ leaf, a'.locate word = some leaf ∧
    ∀ m, a'.symbolOf m = if m = leaf then some sym else a.symbolOf m

theorem insert_inserted {a : Arena} (ha : a.Sound) (code sym len : Nat) {path : List Bool}
    {node : Nat} (hpath : a.locate path = some node) :
    a.Inserted (a.insert code sym len node) (path ++ Bits.low code len) sym := by
  induction len generalizing a path node with
  | zero =>
    have hnode : node < a.symbol.length := by rw [ha.sizes]; exact ha.bound hpath
    have hword : path ++ Bits.low code 0 = path := List.append_nil _
    rw [hword]
    refine ⟨⟨?_, ha.bound, ha.inj, ha.onto⟩, Nat.le_refl _, fun r => ⟨.inl, ?_⟩, fun _ _ h => h,
      fun _ _ h => .inl h, node, hpath, fun m => ?_⟩
    · exact (List.length_set ..).trans ha.sizes
    · rintro (h | ⟨q, rfl⟩)
      · exact h
      · exact isSome_locate_of_append (a := a) (q := q) (by rw [hpath]; rfl)
    · show (a.symbol.set node (some sym)).getD m none = _
      rw [List.getD_eq_getElem?_getD, List.getElem?_set]
      by_cases hm : node = m
      · subst hm
        simp [hnode]
      · have hm' : m ≠ node := fun h => hm h.symm
        simp [hm, hm', symbolOf]
  | succ len ih =>
    have hlocate := locate_branch ha hpath (code.testBit len)
    have hnext : (a.branch node (code.testBit len)).1.locate (path ++ [code.testBit len]) =
        some (a.branch node (code.testBit len)).2 := by rw [hlocate, if_pos rfl]
    have rest := ih (branch_sound ha hpath (code.testBit len)) hnext
    rw [List.append_assoc] at rest
    have length := branch_length a node (code.testBit len)
    refine ⟨rest.sound, Nat.le_trans length rest.length, fun r => ?_, fun r m hr => ?_,
      fun r m hr => ?_, ?_⟩
    · refine (rest.locates r).trans ⟨?_, ?_⟩
      · rintro (h | h)
        · rw [hlocate] at h
          split at h
          · rename_i heq
            subst heq
            refine .inr ⟨Bits.low code len, ?_⟩
            rw [List.append_assoc]
            rfl
          · exact .inl h
        · exact .inr h
      · rintro (h | h)
        · refine .inl ?_
          rw [hlocate]
          split
          · rfl
          · exact h
        · exact .inr h
    · refine rest.keeps r m ?_
      rw [hlocate]
      split
      · rename_i heq
        subst heq
        rw [locate_concat, hpath] at hr
        unfold branch
        rw [show a.child node (code.testBit len) = some m from hr]
      · exact hr
    · obtain h | h := rest.fresh r m hr
      · rw [hlocate] at h
        split at h
        · rename_i heq
          subst heq
          unfold branch at h
          split at h
          · rename_i next hchild
            refine .inl ?_
            rw [locate_concat, hpath]
            exact hchild.trans h
          · cases h
            exact .inr (Nat.le_refl _)
        · exact .inl h
      · exact .inr (Nat.le_trans length h)
    · obtain ⟨leaf, hleaf, hsymbol⟩ := rest.symbol
      refine ⟨leaf, hleaf, fun m => ?_⟩
      rw [← branch_symbolOf a node (code.testBit len) m]
      exact hsymbol m

/-- The arena that words with their symbols were put in. -/
structure Spells (a : Arena) (words : List (List Bool × Nat)) : Prop where
  sound : a.Sound
  locates : ∀ r, (a.locate r).isSome ↔ r = [] ∨ ∃ w ∈ words, r <+: w.1
  symbols : ∀ r m, a.locate r = some m → ∀ sym, a.symbolOf m = some sym ↔ (r, sym) ∈ words

theorem new_spells : new.Spells [] where
  sound := new_sound
  locates r := by
    constructor
    · intro h
      obtain ⟨m, hm⟩ := Option.isSome_iff_exists.mp h
      exact .inl (locate_new hm).1
    · rintro (rfl | ⟨w, hw, -⟩)
      · rfl
      · cases hw
  symbols r m hr sym := by
    rw [(locate_new hr).2]
    constructor <;> intro h <;> cases h

theorem Spells.insert {a : Arena} {words : List (List Bool × Nat)} (h : a.Spells words)
    (code sym len : Nat) (once : ∀ s, (Bits.low code len, s) ∈ words → s = sym) :
    (a.insert code sym len 0).Spells (words ++ [(Bits.low code len, sym)]) := by
  have hroot : a.locate [] = some 0 := rfl
  have done := insert_inserted h.sound code sym len hroot
  rw [List.nil_append] at done
  obtain ⟨leaf, hleaf, hsymbol⟩ := done.symbol
  refine ⟨done.sound, fun r => ?_, fun r m hr s => ?_⟩
  · rw [done.locates, h.locates]
    simp only [List.mem_append, List.mem_singleton]
    constructor
    · rintro ((rfl | ⟨w, hw, hp⟩) | hp)
      · exact .inl rfl
      · exact .inr ⟨w, .inl hw, hp⟩
      · exact .inr ⟨_, .inr rfl, hp⟩
    · rintro (rfl | ⟨w, hw | rfl, hp⟩)
      · exact .inl (.inl rfl)
      · exact .inl (.inr ⟨w, hw, hp⟩)
      · exact .inr hp
  · rw [hsymbol, List.mem_append, List.mem_singleton]
    by_cases hm : m = leaf
    · subst hm
      obtain rfl := done.sound.inj hr hleaf
      rw [if_pos rfl]
      constructor
      · rintro ⟨⟩
        exact .inr rfl
      · rintro (hs | hs)
        · rw [once s hs]
        · cases hs
          rfl
    · have hne : r ≠ Bits.low code len := by
        rintro rfl
        exact hm (Option.some.inj (hr.symm.trans hleaf))
      rw [if_neg hm]
      cases hold : a.locate r with
      | some m' =>
        obtain rfl := Option.some.inj (hr.symm.trans (done.keeps r m' hold))
        rw [h.symbols r m hold s]
        exact ⟨.inl, fun hs => hs.resolve_right fun heq => hne (congrArg Prod.fst heq)⟩
      | none =>
        have hout : a.children.length ≤ m :=
          (done.fresh r m hr).resolve_left fun hm' => by rw [hold] at hm'; cases hm'
        have hnone : a.symbolOf m = none :=
          List.getD_eq_default _ _ (by rw [h.sound.sizes]; exact hout)
        rw [hnone]
        refine ⟨nofun, ?_⟩
        rintro (hs | hs)
        · have hsome := (h.locates r).mpr (.inr ⟨_, hs, List.prefix_refl _⟩)
          rw [hold] at hsome
          cases hsome
        · exact absurd (congrArg Prod.fst hs) hne

end Arena

/-! ## The code's words -/

/-- The symbols' codes as bits. -/
def words : List (List Bool × Nat) := codes.zipIdx.map fun c => (Bits.low c.1.1 c.1.2, c.2)

/-- The leaves of a tree, each with its path. -/
def Tree.leaves : Tree → List (List Bool × Nat)
  | .empty => []
  | .leaf sym => [([], sym)]
  | .node zero one =>
    (zero.leaves.map fun l => (false :: l.1, l.2)) ++ one.leaves.map fun l => (true :: l.1, l.2)

theorem Tree.mem_leaves {t : Tree} {path : List Bool} {sym : Nat} :
    (path, sym) ∈ t.leaves ↔ t.walk path = some sym := by
  induction t generalizing path with
  | empty => simp [Tree.leaves, Tree.walk]
  | leaf s =>
    cases path with
    | nil => simp [Tree.leaves, Tree.walk, eq_comm]
    | cons b path => simp [Tree.leaves, Tree.walk]
  | node zero one ihz iho =>
    cases path with
    | nil => simp [Tree.leaves, Tree.walk]
    | cons b path =>
      cases b with
      | false => simp [Tree.leaves, Tree.walk, ← ihz]
      | true => simp [Tree.leaves, Tree.walk, ← iho]

theorem walk_of_mem_words {w : List Bool × Nat} (h : w ∈ words) : Tree.build.walk w.1 = some w.2 := by
  have hall : ∀ w ∈ words, Tree.build.walk w.1 = some w.2 := by decide +kernel
  exact hall w h

theorem mem_zipIdx_getD {α : Type} (l : List α) {i : Nat} (h : i < l.length) (d : α) :
    (l.getD i d, i) ∈ l.zipIdx := by
  rw [List.mem_zipIdx_iff_getElem?, List.getD_eq_getElem?_getD, List.getElem?_eq_getElem h]
  rfl

theorem mem_words_iff {path : List Bool} {sym : Nat} :
    (path, sym) ∈ words ↔ Tree.build.walk path = some sym := by
  have hall : ∀ l ∈ Tree.build.leaves, l.2 < codes.length ∧
      l.1 = Bits.low (codes.getD l.2 (0, 0)).1 (codes.getD l.2 (0, 0)).2 := by decide +kernel
  refine ⟨fun h => walk_of_mem_words (w := (path, sym)) h, fun h => ?_⟩
  obtain ⟨hlt, hpath⟩ := hall _ (Tree.mem_leaves.mpr h)
  unfold words
  refine List.mem_map.mpr ⟨(codes.getD sym (0, 0), sym), mem_zipIdx_getD codes hlt (0, 0), ?_⟩
  rw [← hpath]

theorem build_spells : Arena.build.Spells words := by
  have hfold : ∀ done rest : List ((Nat × Nat) × Nat), done ++ rest = codes.zipIdx →
      ∀ a : Arena, a.Spells (done.map fun c => (Bits.low c.1.1 c.1.2, c.2)) →
        (rest.foldl (fun a c => a.insert c.1.1 c.2 c.1.2 0) a).Spells words := by
    intro done rest
    induction rest generalizing done with
    | nil =>
      intro hall a ha
      rw [List.append_nil] at hall
      subst hall
      exact ha
    | cons c rest ih =>
      intro hall a ha
      have hmem : ∀ d ∈ done ++ [c], (Bits.low d.1.1 d.1.2, d.2) ∈ words := by
        intro d hd
        unfold words
        refine List.mem_map.mpr ⟨d, ?_, rfl⟩
        rw [← hall]
        obtain hd | hd := List.mem_append.mp hd
        · exact List.mem_append_left _ hd
        · cases List.mem_singleton.mp hd
          exact List.mem_append_right _ List.mem_cons_self
      refine ih (done ++ [c]) (by rw [← hall, List.append_assoc]; rfl) _ ?_
      rw [List.map_append]
      refine ha.insert c.1.1 c.2 c.1.2 fun s hs => ?_
      obtain ⟨d, hd, heq⟩ := List.mem_map.mp hs
      have hthere := walk_of_mem_words (hmem d (List.mem_append_left _ hd))
      have hhere := walk_of_mem_words (hmem c (List.mem_append_right _ List.mem_cons_self))
      rw [heq] at hthere
      exact Option.some.inj (hthere.symm.trans hhere)
  exact hfold [] codes.zipIdx rfl _ Arena.new_spells

end Huffman

end H2Proxy
