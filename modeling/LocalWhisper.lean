import LocalWhisper.Machine.Sliding
import LocalWhisper.Transcription.Windowing
import LocalWhisper.Service.RecorderHandle
import LocalWhisper.Service.InferenceHandle
import LocalWhisper.Service.RecordingFlag
import LocalWhisper.Service.FileJob
import LocalWhisper.Service.Idle
import LocalWhisper.Service.AudioFile
import LocalWhisper.Service.Counters
import LocalWhisper.Service.Timestamps
import LocalWhisper.Service.SavedItems
import LocalWhisper.TransscriptsJSON.Saving
import LocalWhisper.Record.ChunkOwnership
import LocalWhisper.Record.Utility.ChunkTiling
import LocalWhisper.CTranslate2.TokenDecoder
import LocalWhisper.NativeText.JavaStrings
import LocalWhisper.Events.Dispatch
import LocalWhisper.Events.TypeCache
import LocalWhisper.Events.Subscriptions
import LocalWhisper.Events.OneShot
import LocalWhisper.Machine.Memory
import LocalWhisper.CTranslate2.FeatureExtractor
import LocalWhisper.NativeAudio.FloatConverter
import LocalWhisper.SettingUI.ExternalModelRepository
import LocalWhisper.SettingUI.ModelImport
import LocalWhisper.SettingUI.SettingsStore
import LocalWhisper.Transcription.QueueOverflow
import LocalWhisper.Transcription.FinalResult
import LocalWhisper.Record.Buffer.Leases
import LocalWhisper.Record.Utility.AudioFilePcmDecoder
import LocalWhisper.Record.Buffer.RingFifo
import LocalWhisper.Record.Buffer.Resampling
import LocalWhisper.Record.WavFile
import LocalWhisper.NativeText.Resynchronise
import LocalWhisper.CTranslate2.MergeReference
import LocalWhisper.CTranslate2.SilentFrames
import LocalWhisper.Transcription.PreviousContextWordExtractor
import LocalWhisper.SettingUI.StoredDefinitions
import LocalWhisper.CTranslate2.Reflection
import LocalWhisper.ResultUI.TranscriptionResultRepository
import LocalWhisper.Events.AwaiterProcess
import LocalWhisper.SettingUI.ImportedModelCleanup
import LocalWhisper.Utils.BuilderLeases
import LocalWhisper.WhisperVad.ProcessedAudio
import LocalWhisper.Transcription.LiveTranscription
import LocalWhisper.WhisperMel.Agreement
