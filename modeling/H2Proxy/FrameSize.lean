import H2Proxy.Tap

/-
  How long a frame a peer takes.

  `Fitting` says of a log that every frame sent was no longer than the `MAX_FRAME_SIZE` of the
  SETTINGS heard before it. A header block goes out whole, and a GOAWAY carries a text; these
  two are left aside. All other frames but DATA are short whatever the settings are.
-/

namespace H2Proxy

namespace Tap

variable {α : Type} (T : Tap α)

/-- Every frame was no longer than the peer took when it was sent. -/
def Fitting (log : List α) : Prop :=
  Throughout (fun before a => ∀ f, T.sent a = some f →
    f.whole ∨ f.payloadLen ≤ (T.settings before).maxFrameSize) log

variable {T} {log log' : List α}

/-- The peer's settings leave room for frames of the smallest size it may ask for. -/
theorem settings_frameSizeOk (log : List α) : (T.settings log).FrameSizeOk := by
  induction log using List.reverseRecOn with
  | nil =>
    show Settings.default.FrameSizeOk
    exact ⟨by decide, by decide⟩
  | append_singleton log a ih =>
    rw [settings_snoc]
    cases T.heard a with
    | none => exact ih
    | some f =>
      show (f.settle (T.settings log)).FrameSizeOk
      unfold Frame.settle
      split
      · exact Settings.apply_frameSizeOk _ ih
      · exact ih

theorem fits_of_brief {f : Frame} (h : f.brief) (log : List α) :
    f.whole ∨ f.payloadLen ≤ (T.settings log).maxFrameSize := by
  obtain whole | short := Bool.or_eq_true _ _ ▸ h
  · exact .inl whole
  · have room := (T.settings_frameSizeOk log).1
    have short := of_decide_eq_true short
    unfold defaultMaxFrameSize at room
    exact .inr (by omega)

theorem Fitting.aside (h : T.Fitting log) (grows : Adds T.Aside log log') : T.Fitting log' :=
  Throughout.adds h grows fun before _ aside f sent => fits_of_brief (aside.2 f sent).2.2 before

/-- Whatever is sent is within the size in force. -/
theorem Fitting.within (h : T.Fitting log) {a : α}
    (within : ∀ f, T.sent a = some f → f.whole ∨ f.payloadLen ≤ (T.settings log).maxFrameSize) :
    T.Fitting (log ++ [a]) := Throughout.snoc h within

end Tap

end H2Proxy
