import PsVideo.UrlUpdate
import PsVideo.Observers
import PsVideo.LastUpdate
import PsVideo.RoundTrip
import PsVideo.Layers
import PsVideo.Lifetime
import PsVideo.Agreement
import PsVideo.Isolation
import PsVideo.Seeking
import PsVideo.MenuRuns
import PsVideo.TimerRuns
import PsVideo.Unwraps
import PsVideo.AnotherVideo
import PsVideo.SpeedShown
import PsVideo.BitRate
import PsVideo.LabelReading
import PsVideo.ColorExtension
import PsVideo.OwnPlayer
import PsVideo.Crashes
import PsVideo.StaleTimers
import PsVideo.LayerLedger
import PsVideo.SessionEnd
import PsVideo.TableRuns
import PsVideo.LostTokens
import PsVideo.Background
import PsVideo.Commit
import PsVideo.OwnCrashes
import PsVideo.Recovery
import PsVideo.LabelRuns
import PsVideo.Buffering
