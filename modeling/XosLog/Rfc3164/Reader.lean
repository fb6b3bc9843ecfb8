import Mathlib.Data.List.TakeWhile
import XosLog.Calendar.Rfc3339

/-!
# A reader for RFC 3164 packets

An executable reader that splits a packet at the delimiters of its parts: the
priority in angle brackets, the time in 15 characters, the host name up to a
space, the tag up to a bracket, the process identifier in brackets, and the
message.
-/

namespace Rfc3164

open Rfc3339 (expect readDigits)

/-- The parts of a packet. -/
structure Packet where
  facility : Nat
  severity : Nat
  month : Nat
  day : Nat
  hour : Nat
  minute : Nat
  second : Nat
  hostname : List Char
  tag : List Char
  pid : Nat
  message : List Char
  deriving DecidableEq, Repr

/-! ## The parts -/

/-- The text before the first delimiter, and the text after it. -/
def upTo (delimiter : Char) (text : List Char) : Option (List Char × List Char) :=
  match text.dropWhile (· != delimiter) with
  | [] => none
  | _ :: rest => some (text.takeWhile (· != delimiter), rest)

theorem upTo_append {delimiter : Char} {field : List Char} (free : delimiter ∉ field)
    (rest : List Char) : upTo delimiter (field ++ delimiter :: rest) = some (field, rest) := by
  have others : ∀ c ∈ field, (c != delimiter) = true := by
    intro c member
    rw [bne_iff_ne]
    rintro rfl
    exact free member
  rw [upTo, List.dropWhile_append_of_pos others, List.takeWhile_append_of_pos others]
  simp

/-- A part never contains its delimiter. -/
theorem not_mem_of_upTo {delimiter : Char} {text field rest : List Char}
    (found : upTo delimiter text = some (field, rest)) : delimiter ∉ field := by
  unfold upTo at found
  split at found
  · contradiction
  · obtain ⟨rfl, -⟩ := Prod.mk.inj (Option.some.inj found)
    intro member
    have other := List.mem_takeWhile_imp member
    simp at other

/-- An unsigned decimal number. -/
def number (digits : List Char) : Option Nat :=
  if digits ≠ [] ∧ digits.all Char.isDigit = true then some (Nat.ofDigitChars 10 digits 0)
  else none

theorem isDigit_of_mem_toDigits {n : Nat} {c : Char} (member : c ∈ Nat.toDigits 10 n) :
    c.isDigit = true :=
  Nat.isDigit_of_mem_toDigits (by decide) (by decide) member

theorem number_toDigits (n : Nat) : number (Nat.toDigits 10 n) = some n := by
  have all : (Nat.toDigits 10 n).all Char.isDigit = true :=
    List.all_eq_true.mpr fun _ => isDigit_of_mem_toDigits
  rw [number, if_pos ⟨Nat.toDigits_ne_nil, all⟩, Nat.ofDigitChars_ten_toDigits]

/-- The names of the months. -/
def monthNames : List (List Char) :=
  ["Jan", "Feb", "Mar", "Apr", "May", "Jun", "Jul", "Aug", "Sep", "Oct", "Nov", "Dec"].map
    String.toList

/-- `MMM dd HH:MM:SS`, where the day may begin with a space. -/
def readStamp (text : List Char) : Option (Nat × Nat × Nat × Nat × Nat) := do
  let month ← monthNames.idxOf? (text.take 3)
  let text ← expect [' '] (text.drop 3)
  let day ← number ((text.take 2).dropWhile (· == ' '))
  let text ← expect [' '] (text.drop 2)
  let (hour, text) ← readDigits 2 text
  let text ← expect [':'] text
  let (minute, text) ← readDigits 2 text
  let text ← expect [':'] text
  let (second, text) ← readDigits 2 text
  if text = [] then some (month + 1, day, hour, minute, second) else none

/-! ## Packets -/

/-- `<PRI>TIMESTAMP HOSTNAME TAG[PID]: MSG` -/
def read (text : List Char) : Option Packet := do
  let text ← expect ['<'] text
  let (pri, text) ← upTo '>' text
  let pri ← number pri
  let (month, day, hour, minute, second) ← readStamp (text.take 15)
  let text ← expect [' '] (text.drop 15)
  let (hostname, text) ← upTo ' ' text
  let (tag, text) ← upTo '[' text
  let (pid, text) ← upTo ']' text
  let pid ← number pid
  let text ← expect [':'] text
  let message ← expect [' '] text
  some { facility := pri / 8, severity := pri % 8, month, day, hour, minute, second, hostname, tag,
         pid, message }

/-- A packet is read part by part. -/
theorem read_parts {pri pid stampText hostname tag : List Char} {priority identifier : Nat}
    {stamp : Nat × Nat × Nat × Nat × Nat} (message : List Char)
    (priFree : '>' ∉ pri) (isPri : number pri = some priority)
    (fifteen : stampText.length = 15) (isStamp : readStamp stampText = some stamp)
    (hostFree : ' ' ∉ hostname) (tagFree : '[' ∉ tag)
    (pidFree : ']' ∉ pid) (isPid : number pid = some identifier) :
    read ('<' :: (pri ++ '>' :: (stampText ++ ' ' :: (hostname ++ ' ' :: (tag ++
        '[' :: (pid ++ ']' :: ':' :: ' ' :: message)))))) =
      some { facility := priority / 8, severity := priority % 8, month := stamp.1,
             day := stamp.2.1, hour := stamp.2.2.1, minute := stamp.2.2.2.1,
             second := stamp.2.2.2.2, hostname, tag, pid := identifier, message } := by
  have one (c : Char) (text : List Char) : expect [c] (c :: text) = some text := by
    simp [expect]
  have taken (rest : List Char) : (stampText ++ rest).take 15 = stampText :=
    List.take_left' fifteen
  have dropped (rest : List Char) : (stampText ++ rest).drop 15 = rest :=
    List.drop_left' fifteen
  unfold read
  simp only [Option.bind_eq_bind, Option.bind_some, one, upTo_append priFree, isPri, taken, isStamp,
    dropped, upTo_append hostFree, upTo_append tagFree, upTo_append pidFree, isPid]

/-- The host name that is read contains no space. -/
theorem space_not_mem_hostname {text : List Char} {packet : Packet}
    (isRead : read text = some packet) : ' ' ∉ packet.hostname := by
  unfold read at isRead
  simp only [Option.bind_eq_bind, Option.bind_eq_some_iff] at isRead
  obtain ⟨_, -, _, -, _, -, _, -, _, -, ⟨hostname, rest⟩, found, _, -, _, -, _, -, _, -, _, -,
    same⟩ := isRead
  obtain rfl := Option.some.inj same
  exact not_mem_of_upTo found

end Rfc3164
