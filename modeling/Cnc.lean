import Cnc.Main
import Cnc.Proofs.Angles
import Cnc.Proofs.Appending
import Cnc.Proofs.ArcLength
import Cnc.Proofs.Cleaning
import Cnc.Proofs.Closing
import Cnc.Proofs.Comments
import Cnc.Proofs.Connections
import Cnc.Proofs.Enclosure
import Cnc.Proofs.Extents
import Cnc.Proofs.FailedLines
import Cnc.Proofs.Flattening
import Cnc.Proofs.FullCircle
import Cnc.Proofs.Heeding
import Cnc.Proofs.Isolation
import Cnc.Proofs.JogLine
import Cnc.Proofs.LineSplitting
import Cnc.Proofs.LinkLoss
import Cnc.Proofs.Narration
import Cnc.Proofs.Pausing
import Cnc.Proofs.ProgressEnds
import Cnc.Proofs.Refusals
import Cnc.Proofs.ResetUnderJob
import Cnc.Proofs.Resumable
import Cnc.Proofs.Rounding
import Cnc.Proofs.Scanning
import Cnc.Proofs.SendStatistics
import Cnc.Proofs.Sessions
import Cnc.Proofs.SettingEcho
import Cnc.Proofs.SingleWriter
import Cnc.Proofs.SlotPerLine
import Cnc.Proofs.StatusGrammar
import Cnc.Proofs.Streamed
import Cnc.Proofs.Timeouts
import Cnc.Proofs.UsableOptions
import Cnc.Session.Run
import Cnc.Toolpath.Bounds
import Cnc.Toolpath.Progress
