import XosLog.Level
import XosLog.Time
import XosLog.Utf8

/-!
# Syslog datagrams

The datagram of one record: the priority, the time, the host and the tag in a
header, and then the record, cut to the size of a legacy datagram.  Both syslog
sinks build their datagrams here.
-/

namespace XosLog.Syslog

/-- Maximum size of a legacy syslog datagram. -/
def maxSyslogPacket : Nat := 1024

def severityDebug : Nat := 7
def severityInfo : Nat := 6
def severityWarning : Nat := 4
def severityError : Nat := 3

inductive Facility
  | kernel | user | mail | daemon | auth | syslog | lpr | news | uucp | cron | authPriv | ftp
  | local0 | local1 | local2 | local3 | local4 | local5 | local6 | local7
  deriving DecidableEq, Repr

/-- The numeric facility code. -/
def Facility.code : Facility → Nat
  | .kernel => 0
  | .user => 1
  | .mail => 2
  | .daemon => 3
  | .auth => 4
  | .syslog => 5
  | .lpr => 6
  | .news => 7
  | .uucp => 8
  | .cron => 9
  | .authPriv => 10
  | .ftp => 11
  | .local0 => 16
  | .local1 => 17
  | .local2 => 18
  | .local3 => 19
  | .local4 => 20
  | .local5 => 21
  | .local6 => 22
  | .local7 => 23

def levelToSeverity : Level → Nat
  | .trace | .debug => severityDebug
  | .info => severityInfo
  | .warn => severityWarning
  | .error => severityError
  | .off => severityDebug

def months : List Text :=
  ["Jan", "Feb", "Mar", "Apr", "May", "Jun", "Jul", "Aug", "Sep", "Oct", "Nov", "Dec"].map
    String.toList

/-- `MMM dd HH:MM:SS`, with the day padded by a space. -/
def rfc3164Timestamp (ts : Timestamp) : Text :=
  let month := months.getD (ts.month - 1) "Jan".toList
  month ++ ' ' :: Text.spacePadded 2 ts.day ++ ' ' :: Text.zeroPadded 2 ts.hour ++
    ':' :: Text.zeroPadded 2 ts.minute ++ ':' :: Text.zeroPadded 2 ts.second

/-- `<PRI>TIMESTAMP HOSTNAME TAG[PID]: ` -/
def packetHeader (facility : Facility) (level : Level) (timestamp : Timestamp)
    (hostname ident : Text) (pid : Nat) : Text :=
  let pri := facility.code * 8 + levelToSeverity level
  '<' :: Text.decimal pri ++ '>' :: rfc3164Timestamp timestamp ++ ' ' :: hostname ++
    ' ' :: ident ++ '[' :: Text.decimal pid ++ "]: ".toList

/-- The record without the newline that its formatter added. -/
def stripNewline (formatted : Bytes) : Bytes :=
  if formatted.getLast? = some 0x0A then formatted.take (formatted.length - 1) else formatted

def buildPacket (facility : Facility) (level : Level) (timestamp : Timestamp)
    (hostname ident : Text) (pid : Nat) (formatted : Bytes) : Bytes :=
  let header := packetHeader facility level timestamp hostname ident pid
  let msg := stripNewline formatted
  let budget := maxSyslogPacket - header.len
  let msg := msg.take (min msg.length budget)
  (header ++ Utf8.fromUtf8Lossy msg).utf8

/-! ## What the environment supplies -/

/-- The characters that stay in a tag: ASCII alphanumerics, `_`, `-` and `.`. -/
def isTagChar (c : Char) : Bool :=
  c.isAlphanum || c == '_' || c == '-' || c == '.'

/-- Restrict a program identity to the characters of a tag. -/
def sanitizeIdent (ident : Text) : Text :=
  if ident = [] then "xoslog".toList
  else ident.map fun c => if isTagChar c then c else '_'

example : sanitizeIdent "my app#1".toList = "my_app_1".toList := by
  decide

/-- The reported host name, from the content of `/etc/hostname` and the value of
`HOSTNAME`, as far as each can be read. -/
def readHostname (etcHostname hostnameVar : Option Text) : Text :=
  let fromVar :=
    match hostnameVar with
    | some host => if host ≠ [] then host else "localhost".toList
    | none => "localhost".toList
  match etcHostname with
  | some content =>
      let host := Text.trim content
      if host ≠ [] then host else fromVar
  | none => fromVar

end XosLog.Syslog
