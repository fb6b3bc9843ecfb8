import XosLog.Syslog.Packet

/-!
# Datagrams fit and are faithful

The budget of the record is counted in bytes before a lossy conversion that may
lengthen it again.  A datagram has the right size and carries a prefix of the
record exactly when its header fits and the cut is between two characters.
-/

namespace XosLog.Syslog

/-! ## The size of a header -/

/-- Decimal digits of a number. -/
def digits (n : Nat) : Nat :=
  (Text.decimal n).length

/-- Bytes of a rendered time: 15 when every field has at most two digits. -/
def timestampSize (ts : Timestamp) : Nat :=
  7 + max 2 (digits ts.day) + max 2 (digits ts.hour) + max 2 (digits ts.minute) +
    max 2 (digits ts.second)

/-- Bytes of a header, part by part. -/
def headerSize (facility : Facility) (level : Level) (timestamp : Timestamp)
    (hostname ident : Text) (pid : Nat) : Nat :=
  8 + digits (facility.code * 8 + levelToSeverity level) + timestampSize timestamp +
    hostname.len + ident.len + digits pid

theorem len_of_ascii {text : Text} (ascii : ∀ c ∈ text, c.utf8Size = 1) :
    text.len = text.length := by
  induction text with
  | nil => rfl
  | cons c text inductionHypothesis =>
      rw [Text.len_cons, ascii c List.mem_cons_self,
        inductionHypothesis fun d member => ascii d (List.mem_cons_of_mem c member),
        List.length_cons, Nat.add_comm]

theorem utf8Size_of_isDigit {c : Char} (digit : c.isDigit = true) : c.utf8Size = 1 := by
  simp only [Char.isDigit, Bool.and_eq_true, decide_eq_true_eq] at digit
  exact Char.utf8Size_eq_one_iff.mpr (UInt32.le_trans digit.2 (by decide))

theorem len_decimal (n : Nat) : (Text.decimal n).len = digits n :=
  len_of_ascii fun _ member =>
    utf8Size_of_isDigit (Nat.isDigit_of_mem_toDigits (by decide) (by decide) member)

theorem len_replicate (n : Nat) {c : Char} (ascii : c.utf8Size = 1) :
    Text.len (List.replicate n c) = n := by
  rw [len_of_ascii fun d member => List.eq_of_mem_replicate member ▸ ascii, List.length_replicate]

theorem len_zeroPadded (width n : Nat) :
    (Text.zeroPadded width n).len = max width (digits n) := by
  change Text.len (List.replicate _ _ ++ Text.decimal n) = _
  rw [Text.len_append, len_replicate _ rfl, len_decimal, digits]
  omega

theorem len_spacePadded (width n : Nat) :
    (Text.spacePadded width n).len = max width (digits n) := by
  rw [Text.spacePadded, Text.len_append, len_replicate _ rfl, len_decimal, digits]
  omega

theorem len_month (index : Nat) : (months.getD index "Jan".toList).len = 3 := by
  have each : ∀ month ∈ months, Text.len month = 3 := by
    simp only [months, List.map_cons, List.map_nil, List.forall_mem_cons]
    decide
  rw [List.getD_eq_getElem?_getD]
  cases found : months[index]? with
  | none => rfl
  | some month => exact each month (List.mem_of_getElem? found)

theorem len_packetHeader (facility : Facility) (level : Level) (timestamp : Timestamp)
    (hostname ident : Text) (pid : Nat) :
    (packetHeader facility level timestamp hostname ident pid).len =
      headerSize facility level timestamp hostname ident pid := by
  have angle : '<'.utf8Size = 1 ∧ '>'.utf8Size = 1 := ⟨rfl, rfl⟩
  have square : '['.utf8Size = 1 ∧ ']'.utf8Size = 1 := ⟨rfl, rfl⟩
  have space : ' '.utf8Size = 1 := rfl
  have colon : ':'.utf8Size = 1 := rfl
  have tagEnd : Text.len "]: ".toList = 3 := rfl
  simp only [packetHeader, rfc3164Timestamp, Text.len_append, Text.len_cons, len_month,
    len_spacePadded, len_zeroPadded, len_decimal, angle, square, space, colon, tagEnd,
    headerSize, timestampSize]
  omega

/-! ## The record -/

/-- A record without its trailing newline. -/
def withoutNewline (record : Text) : Text :=
  if record.getLast? = some '\n' then record.dropLast else record

theorem getLast?_encodeChar (c : Char) :
    (String.utf8EncodeChar c).getLast? = some 0x0A ↔ c = '\n' := by
  constructor
  · intro last
    obtain ⟨lead, tail, bytes, encodes⟩ := Utf8.exists_encodes c
    rw [bytes] at last
    by_cases long : tail = []
    · subst tail
      obtain rfl := Option.some.inj last
      exact encodes.decoded.symm
    · exact absurd (encodes.last_ge long _ last) (by decide)
  · rintro rfl
    rfl

theorem stripNewline_utf8 (record : Text) :
    stripNewline record.utf8 = (withoutNewline record).utf8 := by
  rcases List.eq_nil_or_concat' record with rfl | ⟨init, c, rfl⟩
  · rfl
  have bytes : Text.utf8 (init ++ [c]) = Text.utf8 init ++ String.utf8EncodeChar c := by
    rw [Text.utf8_append, Text.utf8_cons, Text.utf8_nil, List.append_nil]
  have last : (Text.utf8 (init ++ [c])).getLast? = some 0x0A ↔ c = '\n' := by
    rw [bytes, List.getLast?_append_of_ne_nil _ String.utf8EncodeChar_ne_nil, getLast?_encodeChar]
  unfold stripNewline withoutNewline
  simp only [List.getLast?_concat, List.dropLast_concat, Option.some.injEq]
  by_cases newline : c = '\n'
  · rw [if_pos (last.mpr newline), if_pos newline, bytes]
    subst c
    have length : (Text.utf8 init ++ String.utf8EncodeChar '\n').length - 1 =
        (Text.utf8 init).length := by
      rw [List.length_append]
      rfl
    rw [length, List.take_left]
  · rw [if_neg (mt last.mp newline), if_neg newline]

/-! ## The datagram -/

/-- The datagram is the header and the decoded cut of the record. -/
theorem buildPacket_eq (facility : Facility) (level : Level) (timestamp : Timestamp)
    (hostname ident : Text) (pid : Nat) (record : Text) :
    buildPacket facility level timestamp hostname ident pid record.utf8 =
      (packetHeader facility level timestamp hostname ident pid).utf8 ++
        Text.utf8 (Utf8.fromUtf8Lossy ((withoutNewline record).utf8.take
          (maxSyslogPacket - headerSize facility level timestamp hostname ident pid))) := by
  unfold buildPacket
  dsimp only
  rw [stripNewline_utf8, len_packetHeader, Text.utf8_append, Nat.min_comm,
    ← List.take_take, List.take_length]

/-- The datagram is at most as large as a legacy datagram, and what follows its
header is a prefix of the record, all of it when it fits. -/
def Faithful (header : Text) (message packet : Bytes) : Prop :=
  packet.length ≤ maxSyslogPacket ∧
    ∃ body, packet = header.utf8 ++ body ∧ body <+: message ∧
      (header.len + message.length ≤ maxSyslogPacket → body = message)

theorem faithful_append_iff (header : Text) (message body : Bytes) :
    Faithful header message (header.utf8 ++ body) ↔
      header.len + body.length ≤ 1024 ∧ body <+: message ∧
        (header.len + message.length ≤ 1024 → body = message) := by
  unfold Faithful maxSyslogPacket
  rw [List.length_append, Text.length_utf8]
  constructor
  · rintro ⟨small, other, same, isPrefix, whole⟩
    obtain rfl := List.append_cancel_left same
    exact ⟨small, isPrefix, whole⟩
  · rintro ⟨small, isPrefix, whole⟩
    exact ⟨small, body, rfl, isPrefix, whole⟩

/-- A replacement character is not the beginning of a character of four bytes. -/
theorem not_replacement_prefix {c : Char} {bytes : Bytes} (four : c.utf8Size = 4) :
    ¬String.utf8EncodeChar Utf8.replacement <+: String.utf8EncodeChar c ++ bytes := by
  rintro ⟨others, shape⟩
  obtain ⟨lead, tail, encoded, encodes⟩ := Utf8.exists_encodes c
  have length : tail.length = 3 := by
    rw [← String.length_utf8EncodeChar, encoded, List.length_cons] at four
    omega
  have trailing := encodes.trailing
  rw [encoded] at shape
  obtain rfl : 0xEF = lead := (List.cons.inj shape).1
  rw [length] at trailing
  exact absurd trailing (by decide)

/-- A datagram is faithful exactly when its header fits, and the record fits
beside it or is cut at a boundary between two characters. -/
theorem buildPacket_faithful_iff (facility : Facility) (level : Level) (timestamp : Timestamp)
    (hostname ident : Text) (pid : Nat) (record : Text) :
    Faithful (packetHeader facility level timestamp hostname ident pid)
        (withoutNewline record).utf8
        (buildPacket facility level timestamp hostname ident pid record.utf8) ↔
      let header := headerSize facility level timestamp hostname ident pid
      header ≤ 1024 ∧
        (header + (withoutNewline record).len ≤ 1024 ∨
          Utf8.isCharBoundary (withoutNewline record) (1024 - header) = true) := by
  rw [buildPacket_eq, ← len_packetHeader, faithful_append_iff]
  generalize packetHeader facility level timestamp hostname ident pid = header
  generalize withoutNewline record = message
  rw [Text.length_utf8, Text.length_utf8]
  unfold maxSyslogPacket
  dsimp only
  by_cases headerFits : header.len ≤ 1024
  · by_cases fits : header.len + message.len ≤ 1024
    · have whole : message.utf8.take (1024 - header.len) = message.utf8 := by
        apply List.take_of_length_le
        rw [Text.length_utf8]
        omega
      have decoded : Utf8.fromUtf8Lossy message.utf8 = message := Utf8.fromUtf8Lossy_encode message
      rw [whole, decoded]
      exact iff_of_true ⟨fits, List.prefix_rfl, fun _ => rfl⟩ ⟨headerFits, Or.inl fits⟩
    · have within : 1024 - header.len ≤ (Utf8.encode message).length := by
        change _ ≤ message.utf8.length
        rw [Text.length_utf8]
        omega
      rcases Utf8.boundary_or_inside message within with
        ⟨boundary, kept, rest, rfl, length⟩ | ⟨boundary, kept, c, rest, rfl, lower, upper⟩
      · have decoded : Utf8.fromUtf8Lossy
            ((Text.utf8 (kept ++ rest)).take (1024 - header.len)) = kept := by
          rw [← length]
          exact Utf8.fromUtf8Lossy_boundary
        have keptLength : Text.len kept = 1024 - header.len := by
          rw [← Text.length_utf8]
          exact length
        rw [decoded, Text.utf8_append, keptLength]
        apply iff_of_true
        · exact ⟨by omega, List.prefix_append _ _, fun whole => absurd whole fits⟩
        · exact ⟨headerFits, Or.inr boundary⟩
      · have decoded : Utf8.fromUtf8Lossy
            ((Text.utf8 (kept ++ c :: rest)).take (1024 - header.len)) =
              kept ++ [Utf8.replacement] := Utf8.fromUtf8Lossy_inside lower upper
        have keptLength : (Utf8.encode kept).length = Text.len kept := Text.length_utf8 kept
        have three : Utf8.replacement.utf8Size = 3 := rfl
        have small := c.utf8Size_le_four
        rw [decoded]
        apply iff_of_false
        · rintro ⟨size, isPrefix, -⟩
          rw [Text.len_append, Text.len_cons, Text.len_nil, three] at size
          rw [Text.utf8_append, Text.utf8_append, Text.utf8_cons, Text.utf8_nil, List.append_nil,
            List.prefix_append_right_inj, Text.utf8_cons] at isPrefix
          exact not_replacement_prefix (by omega) isPrefix
        · rintro ⟨-, whole | atBoundary⟩
          · exact fits whole
          · exact absurd atBoundary (by rw [boundary]; decide)
  · exact iff_of_false (fun faithful => headerFits (by omega))
      fun condition => headerFits condition.1

/-- The cut of a record of two-byte characters is inside one of them, and its
replacement has three bytes. -/
theorem not_buildPacket_faithful :
    ¬∀ (facility : Facility) (level : Level) (timestamp : Timestamp) (hostname ident : Text)
      (pid : Nat) (record : Text),
      Faithful (packetHeader facility level timestamp hostname ident pid)
        (withoutNewline record).utf8
        (buildPacket facility level timestamp hostname ident pid record.utf8) := by
  intro faithful
  have sample := faithful .user .info (Timestamp.fromUnixMicros 0 0) "host".toList "app".toList 1
    (List.replicate 500 'é')
  have size : (buildPacket .user .info (Timestamp.fromUnixMicros 0 0) "host".toList "app".toList 1
      (Text.utf8 (List.replicate 500 'é'))).length = 1026 := by
    decide +kernel
  exact absurd (size ▸ sample.1) (by decide)

end XosLog.Syslog
