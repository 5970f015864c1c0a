/-! The part of the user's `WhisperSettings` that recording and live inference read. -/

namespace LocalWhisper.Transcription

/-- `Math.max(min, Math.min(max, value))`. -/
def clamp (value lower upper : Int) : Int := max lower (min upper value)

/-- Settings as the constructor leaves them, as far as recording and live
inference read them: every length is inside its range and automatic
retranscription is only on together with recording. -/
structure WhisperSettings where
  modelKey : String
  fileModelKey : String
  windowMs : Nat
  overlapMs : Nat
  minFinalMs : Nat
  audioRecordingEnabled : Bool
  autoRetranscribeEnabled : Bool
  windowRange : 1000 ≤ windowMs ∧ windowMs ≤ 30000
  overlapRange : overlapMs + 250 ≤ windowMs
  minFinalRange : 250 ≤ minFinalMs ∧ minFinalMs ≤ windowMs
  retranscribeRecorded : autoRetranscribeEnabled = true → audioRecordingEnabled = true

namespace WhisperSettings

/-- The public constructor, which brings every argument into its range. -/
def new (modelKey fileModelKey : String) (windowMs overlapMs minFinalMs : Int)
    (audioRecordingEnabled autoRetranscribeEnabled : Bool) : WhisperSettings :=
  let window := clamp windowMs 1000 30000
  let overlap := clamp overlapMs 0 (max 0 (window - 250))
  let minFinal := clamp minFinalMs 250 window
  { modelKey
    fileModelKey
    windowMs := window.toNat
    overlapMs := overlap.toNat
    minFinalMs := minFinal.toNat
    audioRecordingEnabled
    autoRetranscribeEnabled := audioRecordingEnabled && autoRetranscribeEnabled
    windowRange := by simp only [window, clamp]; omega
    overlapRange := by simp only [overlap, window, clamp]; omega
    minFinalRange := by simp only [minFinal, window, clamp]; omega
    retranscribeRecorded := by
      intro enabled
      exact (Bool.and_eq_true_iff.mp enabled).1 }

def defaultSettings : WhisperSettings :=
  .new "ct2-openai-small-int8" "cpp-small-q8-0" 5000 1000 1000 false false

end WhisperSettings

end LocalWhisper.Transcription
