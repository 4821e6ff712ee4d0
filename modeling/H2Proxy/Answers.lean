import H2Proxy.Tap

/-
  SETTINGS and PING ask for an answer.

  What a log owes and what it has answered is read off the frames heard and sent. A log is punctual
  where no answer came before its question, in number or in order; `Owes` is kept by an engine about
  its log, with the answer that is still due.
-/

namespace H2Proxy

namespace Tap

variable {α : Type} (T : Tap α)

/-- The answers asked for, in order. -/
def owed (log : List α) : List Frame := log.filterMap fun a => (T.heard a).bind Frame.answer?

/-- The answers sent, in order. -/
def answered (log : List α) : List Frame := log.filterMap fun a => (T.sent a).filter Frame.answers

/-- At no point of the log had more been answered than was owed, or anything else. -/
def Punctual (log : List α) : Prop := ∀ before, before <+: log → T.answered before <+: T.owed before

/-- All is answered in time but what is due. -/
structure Owes (due : Option Frame) (log : List α) : Prop where
  punctual : T.Punctual log
  owed : T.owed log = T.answered log ++ due.toList

/-- Nothing asked and nothing answered. -/
def Offhand (a : α) : Prop :=
  (T.heard a).bind Frame.answer? = none ∧ (T.sent a).filter Frame.answers = none

variable {T} {log log' : List α} {a : α} {f : Frame} {due : Option Frame}

theorem Aside.offhand (h : T.Aside a) : T.Offhand a := by
  refine ⟨by rw [h.1]; rfl, Option.filter_eq_none_iff.mpr fun f sent => ?_⟩
  rw [(h.2 f sent).2.1]
  nofun

theorem owed_snoc (log : List α) (a : α) :
    T.owed (log ++ [a]) = T.owed log ++ ((T.heard a).bind Frame.answer?).toList := by
  unfold owed
  rw [List.filterMap_append, List.filterMap_cons]
  cases (T.heard a).bind Frame.answer? <;> rfl

theorem answered_snoc (log : List α) (a : α) :
    T.answered (log ++ [a]) = T.answered log ++ ((T.sent a).filter Frame.answers).toList := by
  unfold answered
  rw [List.filterMap_append, List.filterMap_cons]
  cases (T.sent a).filter Frame.answers <;> rfl

theorem Punctual.nil : T.Punctual [] := by
  intro before h
  rw [List.prefix_nil.mp h]
  exact List.prefix_refl _

theorem Punctual.snoc (h : T.Punctual log) (last : T.answered (log ++ [a]) <+: T.owed (log ++ [a])) :
    T.Punctual (log ++ [a]) := by
  intro before hb
  obtain rfl | hb := List.prefix_concat_iff.mp hb
  · exact last
  · exact h before hb

theorem owed_offhand (log : List α) (h : T.Offhand a) : T.owed (log ++ [a]) = T.owed log := by
  rw [owed_snoc, h.1]
  exact List.append_nil _

theorem answered_offhand (log : List α) (h : T.Offhand a) :
    T.answered (log ++ [a]) = T.answered log := by
  rw [answered_snoc, h.2]
  exact List.append_nil _

theorem Punctual.offhand (h : T.Punctual log) (last : T.Offhand a) : T.Punctual (log ++ [a]) := by
  refine h.snoc ?_
  rw [answered_offhand log last, owed_offhand log last]
  exact h log (List.prefix_refl log)

theorem Punctual.adds (h : T.Punctual log) (grows : Adds T.Offhand log log') :
    T.Punctual log' :=
  grows.keeps h fun _ _ kept => kept.offhand

namespace Owes

theorem offhand (h : T.Owes due log) (last : T.Offhand a) : T.Owes due (log ++ [a]) := by
  refine ⟨h.punctual.offhand last, ?_⟩
  rw [owed_offhand log last, answered_offhand log last]
  exact h.owed

theorem adds (h : T.Owes due log) (grows : Adds T.Offhand log log') : T.Owes due log' :=
  grows.keeps h fun _ _ kept => kept.offhand

/-- A frame is heard, and its answer falls due. -/
theorem hear (h : T.Owes none log) (heard : T.heard a = some f) (sent : T.sent a = none) :
    T.Owes f.answer? (log ++ [a]) := by
  have owed : T.owed (log ++ [a]) = T.answered log ++ f.answer?.toList := by
    rw [owed_snoc, heard, show T.owed log = T.answered log by simpa using h.owed]
    rfl
  have answered : T.answered (log ++ [a]) = T.answered log := by
    rw [answered_snoc, sent]
    exact List.append_nil _
  refine ⟨h.punctual.snoc ?_, ?_⟩
  · rw [answered, owed]
    exact List.prefix_append ..
  · rw [answered, owed]

/-- The answer is sent. -/
theorem pay (h : T.Owes (some f) log) (heard : T.heard a = none) (sent : T.sent a = some f)
    (answer : f.answers) : T.Owes none (log ++ [a]) := by
  have owed : T.owed (log ++ [a]) = T.answered log ++ [f] := by
    rw [owed_snoc, heard, show T.owed log = T.answered log ++ [f] from h.owed]
    exact List.append_nil _
  have answered : T.answered (log ++ [a]) = T.answered log ++ [f] := by
    rw [answered_snoc, sent, Option.filter_some, if_pos answer]
    rfl
  refine ⟨h.punctual.snoc ?_, ?_⟩
  · rw [answered, owed]
  · rw [answered, owed]
    exact (List.append_nil _).symm

end Owes

end Tap

end H2Proxy
