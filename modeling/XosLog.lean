import XosLog.Context.Guards
import XosLog.Time.Ordering
import XosLog.Rfc8259.Tokens
import XosLog.Format
import XosLog.Format.Lines
import XosLog.Framing
import XosLog.Syslog.Header
import XosLog.Syslog.Delivery
import XosLog.Json.Integers
import XosLog.Transition.Run
import XosLog.Writer.Degradation
import XosLog.Filter.Whitespace
import XosLog.Json.Shadowing
import XosLog.Rotation.Recovery
import XosLog.Rotation.TimeSlots
import XosLog.Rotation.Alignment
import XosLog.Rotation.TornAppend
import XosLog.Rotation.EmptyArchives
import XosLog.Rotation.Reconfiguration
import XosLog.Rotation.Calendar
import XosLog.Logger.Step
import XosLog.Logger.Invariants
import XosLog.Logger.Loss
import XosLog.Logger.Blocking
import XosLog.Logger.LastDrop
import XosLog.Logger.Quiescence
import XosLog.Logger.Durability
import XosLog.Logger.Datagrams
import XosLog.Logger.Building
import XosLog.Writer.SharedDisk
import XosLog.Rotation.Rescheduling
import XosLog.Rotation.SharedInterval
import XosLog.Rotation.Separation
