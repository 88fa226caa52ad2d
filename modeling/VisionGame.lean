import VisionGame.Base.Effect
import VisionGame.Base.Machine
import VisionGame.Base.Signal
import VisionGame.Base.Json
import VisionGame.Base.Text
import VisionGame.Base.Segment
import VisionGame.Base.Window
import VisionGame.Base.Tally
import VisionGame.Base.Weights
import VisionGame.Base.Fading
import VisionGame.Base.Euler
import VisionGame.Base.Stages
import VisionGame.Base.Courier
import VisionGame.Base.Leases
import VisionGame.Base.Pursuit
import VisionGame.Base.Reader
import VisionGame.Base.Multipart
import VisionGame.Base.Settling
import VisionGame.Vision.OneEuroFilter
import VisionGame.Vision.PcController
import VisionGame.Vision.GestureAnalyzer
import VisionGame.Vision.Globals
import VisionGame.Vision.Loop
import VisionGame.Vision.Dispatch
import VisionGame.Vision.IterationSpec
import VisionGame.Vision.CallRules
import VisionGame.Vision.LeftButton
import VisionGame.Vision.ModeConfinement
import VisionGame.Vision.SettingsSpec
import VisionGame.Vision.ActiveZone
import VisionGame.Vision.SwipeEvidence
import VisionGame.Vision.ReloadSave
import VisionGame.Vision.ReloadOrder
import VisionGame.Vision.Restart
import VisionGame.Vision.SaneSettings
import VisionGame.Vision.CursorPath
import VisionGame.Vision.CursorRuns
import VisionGame.Vision.CursorSettles
import VisionGame.Vision.FilterRuns
import VisionGame.Vision.SwipeWindow
import VisionGame.Vision.Mirror
import VisionGame.Vision.RateLimits
import VisionGame.Vision.ActionRuns
import VisionGame.Vision.ZoneCoverage
import VisionGame.Vision.Scaling
import VisionGame.Vision.OtherHand
import VisionGame.Vision.CameraSource
import VisionGame.Vision.CameraStream
import VisionGame.Vision.VideoFeed
import VisionGame.Vision.LogQueue
import VisionGame.Game.Levels
import VisionGame.Game.State
import VisionGame.Game.Slicing
import VisionGame.Game.Win
import VisionGame.Game.FruitState
import VisionGame.Game.Session
import VisionGame.Game.Progress
import VisionGame.Game.SingleChain
import VisionGame.Game.Strokes
import VisionGame.Game.CutGeometry
import VisionGame.Game.Combos
import VisionGame.Game.Flight
import VisionGame.Game.Drift
import VisionGame.Game.Airtime
import VisionGame.Game.Voices
import VisionGame.Game.Scene
import VisionGame.Game.SceneGame
import VisionGame.Game.SceneRuns
import VisionGame.Web.PythonConfig
import VisionGame.Web.LostUpdate
import VisionGame.Web.ControlPage
import VisionGame.Web.UnsavedEdits
import VisionGame.Web.FileRace
import VisionGame.Web.Secret
import VisionGame.Web.LogPipeline
import VisionGame.Web.Vocabulary
import VisionGame.Web.Profiles
import VisionGame.Web.LiveSettings
