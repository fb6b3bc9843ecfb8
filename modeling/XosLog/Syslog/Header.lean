import XosLog.Rfc3164.Reader
import XosLog.Syslog.Truncation
import XosLog.Time.Rendering

/-!
# A reader of the datagram recovers its header

Every part of a header ends at a delimiter.  Numbers and the sanitized identity
never contain theirs; the host name is written as the environment supplies it,
so a reader recovers the parts exactly when it contains no space.
-/

namespace XosLog.Syslog

open Rfc3339 (expect readDigits)
open Rfc3164 (readStamp number number_toDigits isDigit_of_mem_toDigits)

/-! ## The time -/

/-- The fields of a time of the calendar, as far as a header carries them. -/
structure ValidFields (ts : Timestamp) : Prop where
  month : 1 ≤ ts.month ∧ ts.month ≤ 12
  day : 1 ≤ ts.day ∧ ts.day ≤ 31
  hour : ts.hour < 24
  minute : ts.minute < 60
  second : ts.second < 60

/-- The text of a month. -/
def monthText (month : Nat) : Text :=
  months.getD (month - 1) "Jan".toList

theorem monthText_index : ∀ index < 12, (monthText (index + 1)).length = 3 ∧
    Rfc3164.monthNames.idxOf? (monthText (index + 1)) = some index := by
  decide

theorem spacePadded_day : ∀ day < 32, (Text.spacePadded 2 day).length = 2 ∧
    number ((Text.spacePadded 2 day).dropWhile (· == ' ')) = some day := by
  decide

/-- The fields of a time from left to right. -/
theorem rfc3164Timestamp_eq (ts : Timestamp) :
    rfc3164Timestamp ts = monthText ts.month ++ ' ' :: (Text.spacePadded 2 ts.day ++
      ' ' :: (Text.zeroPadded 2 ts.hour ++ ':' :: (Text.zeroPadded 2 ts.minute ++
        ':' :: (Text.zeroPadded 2 ts.second ++ [])))) := by
  simp [rfc3164Timestamp, monthText]

theorem rfc3164Timestamp_stamp {ts : Timestamp} (valid : ValidFields ts) :
    (rfc3164Timestamp ts).length = 15 ∧
      readStamp (rfc3164Timestamp ts) =
        some (ts.month, ts.day, ts.hour, ts.minute, ts.second) := by
  obtain ⟨index, early, month⟩ : ∃ index < 12, ts.month = index + 1 :=
    ⟨ts.month - 1, by have := valid.month; omega, by have := valid.month; omega⟩
  obtain ⟨monthLength, monthFound⟩ := monthText_index index early
  obtain ⟨dayLength, dayFound⟩ := spacePadded_day ts.day (Nat.lt_succ_of_le valid.day.2)
  have hour : ts.hour < 10 ^ 2 := Nat.lt_trans valid.hour (by decide)
  have minute : ts.minute < 10 ^ 2 := Nat.lt_trans valid.minute (by decide)
  have second : ts.second < 10 ^ 2 := Nat.lt_trans valid.second (by decide)
  have space (text : Text) : expect [' '] (' ' :: text) = some text := rfl
  have colon (text : Text) : expect [':'] (':' :: text) = some text := rfl
  rw [rfc3164Timestamp_eq, month]
  constructor
  · simp only [List.length_append, List.length_cons, List.length_nil, monthLength, dayLength,
      Timestamp.length_zeroPadded (show 0 < 2 by decide), hour, minute, second]
  · unfold readStamp
    rw [List.take_left' monthLength, List.drop_left' monthLength]
    simp only [Option.bind_eq_bind, Option.bind_some, monthFound, space]
    rw [List.take_left' dayLength, List.drop_left' dayLength]
    simp only [Option.bind_some, dayFound, space]
    rw [Timestamp.readDigits_zeroPadded _ (by decide) hour]
    simp only [Option.bind_some, colon]
    rw [Timestamp.readDigits_zeroPadded _ (by decide) minute]
    simp only [Option.bind_some, colon]
    rw [Timestamp.readDigits_zeroPadded _ (by decide) second]
    simp only [Option.bind_some, if_true]

/-! ## The delimiters -/

theorem not_mem_decimal {c : Char} (other : c.isDigit = false) (n : Nat) : c ∉ Text.decimal n := by
  intro member
  have digit : c.isDigit = true := isDigit_of_mem_toDigits member
  rw [other] at digit
  contradiction

theorem isTagChar_of_mem_sanitizeIdent {ident : Text} {c : Char}
    (member : c ∈ sanitizeIdent ident) : isTagChar c = true := by
  unfold sanitizeIdent at member
  split at member
  · have allowed : "xoslog".toList.all isTagChar = true := by decide
    exact List.all_eq_true.mp allowed c member
  · obtain ⟨original, -, rfl⟩ := List.mem_map.mp member
    split
    · assumption
    · rfl

/-- The text from which the host name is taken contains no space: the trimmed
content of `/etc/hostname` or, when this is absent or blank, `HOSTNAME`. -/
def SpaceFree (etcHostname hostnameVar : Option Text) : Prop :=
  (∀ content ∈ etcHostname, ' ' ∉ Text.trim content) ∧
    ((∀ content ∈ etcHostname, Text.trim content = []) → ∀ host ∈ hostnameVar, ' ' ∉ host)

theorem forall_mem_some {α : Type*} {p : α → Prop} {a : α} : (∀ b ∈ some a, p b) ↔ p a := by
  simp

theorem space_not_mem_readHostname (etcHostname hostnameVar : Option Text) :
    ' ' ∉ readHostname etcHostname hostnameVar ↔ SpaceFree etcHostname hostnameVar := by
  have localhost : ' ' ∉ "localhost".toList := by decide
  have fromVar : ' ' ∉ readHostname none hostnameVar ↔ ∀ host ∈ hostnameVar, ' ' ∉ host := by
    cases hostnameVar with
    | none => exact iff_of_true localhost fun host member => nomatch member
    | some host =>
        rw [forall_mem_some]
        by_cases empty : host = []
        · subst host
          exact iff_of_true localhost List.not_mem_nil
        · have named : readHostname none (some host) = host := if_pos empty
          rw [named]
  cases etcHostname with
  | none =>
      rw [fromVar]
      constructor
      · intro free
        exact And.intro (fun content member => nomatch member) fun _ => free
      · intro free
        exact free.2 fun content member => nomatch member
  | some content =>
      rw [SpaceFree, forall_mem_some, forall_mem_some]
      by_cases empty : Text.trim content = []
      · have skipped : readHostname (some content) hostnameVar = readHostname none hostnameVar :=
          if_neg (not_not.mpr empty)
        rw [skipped, fromVar, empty]
        exact ⟨fun free => ⟨List.not_mem_nil, fun _ => free⟩, fun free => free.2 rfl⟩
      · have named : readHostname (some content) hostnameVar = Text.trim content := if_pos empty
        rw [named]
        exact ⟨fun free => ⟨free, fun blank => absurd blank empty⟩, And.left⟩

/-! ## The datagram -/

/-- What a header says, and the message after it. -/
def packetOf (facility : Facility) (level : Level) (timestamp : Timestamp)
    (hostname ident : Text) (pid : Nat) (message : Text) : Rfc3164.Packet :=
  { facility := facility.code, severity := levelToSeverity level, month := timestamp.month,
    day := timestamp.day, hour := timestamp.hour, minute := timestamp.minute,
    second := timestamp.second, hostname, tag := ident, pid, message }

/-- The text of a datagram, split into its parts. -/
def readPacket (packet : Bytes) : Option Rfc3164.Packet :=
  packet.toByteArray.utf8Decode?.bind fun text => Rfc3164.read text.toList

theorem readPacket_utf8 (text : Text) : readPacket (Text.utf8 text) = Rfc3164.read text := by
  have encoded : (Text.utf8 text).toByteArray = List.utf8Encode text := rfl
  simp [readPacket, encoded]

/-- A record that fits is sent whole. -/
theorem buildPacket_of_fits {facility : Facility} {level : Level} {timestamp : Timestamp}
    {hostname ident : Text} {pid : Nat} {record : Text}
    (fits : (packetHeader facility level timestamp hostname ident pid).len +
      (withoutNewline record).len ≤ maxSyslogPacket) :
    buildPacket facility level timestamp hostname ident pid record.utf8 =
      Text.utf8 (packetHeader facility level timestamp hostname ident pid ++
        withoutNewline record) := by
  have whole : (withoutNewline record).utf8.take (maxSyslogPacket -
      headerSize facility level timestamp hostname ident pid) = (withoutNewline record).utf8 := by
    apply List.take_of_length_le
    rw [Text.length_utf8, ← len_packetHeader]
    omega
  have decoded : Utf8.fromUtf8Lossy (withoutNewline record).utf8 = withoutNewline record :=
    Utf8.fromUtf8Lossy_encode _
  rw [buildPacket_eq, whole, decoded, Text.utf8_append]

theorem levelToSeverity_lt (level : Level) : levelToSeverity level < 8 := by
  cases level <;> decide

/-- The reader finds every part of a header whose host name contains no space. -/
theorem read_packetHeader (facility : Facility) (level : Level) {timestamp : Timestamp}
    (valid : ValidFields timestamp) {hostname : Text} (hostFree : ' ' ∉ hostname) (ident : Text)
    (pid : Nat) (message : Text) :
    Rfc3164.read (packetHeader facility level timestamp hostname (sanitizeIdent ident) pid ++
        message) =
      some (packetOf facility level timestamp hostname (sanitizeIdent ident) pid message) := by
  have severity := levelToSeverity_lt level
  have priority : (facility.code * 8 + levelToSeverity level) / 8 = facility.code ∧
      (facility.code * 8 + levelToSeverity level) % 8 = levelToSeverity level := by
    omega
  obtain ⟨fifteen, isStamp⟩ := rfc3164Timestamp_stamp valid
  have tagFree : '[' ∉ sanitizeIdent ident := fun member =>
    absurd (isTagChar_of_mem_sanitizeIdent member) (by decide)
  have parts := Rfc3164.read_parts message (not_mem_decimal (by decide) _)
    (number_toDigits (facility.code * 8 + levelToSeverity level)) fifteen isStamp hostFree tagFree
    (not_mem_decimal (by decide) pid) (number_toDigits pid)
  rw [priority.1, priority.2] at parts
  rw [packetOf, ← parts]
  simp [packetHeader]

/-- A datagram that holds its record is split into the parts it was built from
exactly when no space is taken into the host name. -/
theorem readPacket_buildPacket_iff (facility : Facility) (level : Level) {timestamp : Timestamp}
    (valid : ValidFields timestamp) (etcHostname hostnameVar : Option Text) (ident : Text)
    (pid : Nat) (record : Text)
    (fits : (packetHeader facility level timestamp (readHostname etcHostname hostnameVar)
        (sanitizeIdent ident) pid).len + (withoutNewline record).len ≤ maxSyslogPacket) :
    readPacket (buildPacket facility level timestamp (readHostname etcHostname hostnameVar)
        (sanitizeIdent ident) pid record.utf8) =
      some (packetOf facility level timestamp (readHostname etcHostname hostnameVar)
        (sanitizeIdent ident) pid (withoutNewline record)) ↔
      SpaceFree etcHostname hostnameVar := by
  rw [buildPacket_of_fits fits, readPacket_utf8, ← space_not_mem_readHostname]
  constructor
  · intro isRead
    exact Rfc3164.space_not_mem_hostname isRead
  · intro hostFree
    exact read_packetHeader facility level valid hostFree ident pid (withoutNewline record)

theorem readPacket_buildPacket_iff_web01 :
    ValidFields (Timestamp.fromUnixMicros 0 0) ∧
      (readPacket (buildPacket .daemon .info (Timestamp.fromUnixMicros 0 0)
          (readHostname (some "web01\n".toList) none) (sanitizeIdent "my app".toList) 1234
          (Text.utf8 "remote hello\n".toList)) =
        some (packetOf .daemon .info (Timestamp.fromUnixMicros 0 0)
          (readHostname (some "web01\n".toList) none) (sanitizeIdent "my app".toList) 1234
          (withoutNewline "remote hello\n".toList)) ↔
        SpaceFree (some "web01\n".toList) none) := by
  have valid : ValidFields (Timestamp.fromUnixMicros 0 0) := by
    constructor <;> decide
  constructor
  · exact valid
  · apply readPacket_buildPacket_iff .daemon .info valid
    decide

/-- A comment line of `/etc/hostname` becomes a part of the host name, with its
space. -/
theorem not_readPacket_buildPacket :
    ¬∀ (facility : Facility) (level : Level) (timestamp : Timestamp)
      (etcHostname hostnameVar : Option Text) (ident : Text) (pid : Nat) (record : Text),
      level ≠ .off → ValidFields timestamp →
        (packetHeader facility level timestamp (readHostname etcHostname hostnameVar)
          (sanitizeIdent ident) pid).len + (withoutNewline record).len ≤ maxSyslogPacket →
        readPacket (buildPacket facility level timestamp (readHostname etcHostname hostnameVar)
            (sanitizeIdent ident) pid record.utf8) =
          some (packetOf facility level timestamp (readHostname etcHostname hostnameVar)
            (sanitizeIdent ident) pid (withoutNewline record)) := by
  intro parses
  have sample := parses .user .info (Timestamp.fromUnixMicros 0 0)
    (some "# primary\nweb01\n".toList) none "app".toList 1 "hello\n".toList
    (by decide) (by constructor <;> decide) (by decide)
  have split : readPacket (buildPacket .user .info (Timestamp.fromUnixMicros 0 0)
      (readHostname (some "# primary\nweb01\n".toList) none) (sanitizeIdent "app".toList) 1
      (Text.utf8 "hello\n".toList)) =
      some (packetOf .user .info (Timestamp.fromUnixMicros 0 0) "#".toList
        "primary\nweb01 app".toList 1 "hello".toList) := by
    decide +kernel
  rw [split] at sample
  exact absurd (congrArg Rfc3164.Packet.hostname (Option.some.inj sample)) (by decide)

end XosLog.Syslog
