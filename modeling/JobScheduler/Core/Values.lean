import Mathlib.Order.Lex
import Mathlib.Data.Prod.Lex
import Mathlib.Data.Nat.Digits.Defs
import Mathlib.Data.List.DropRight

/-! The .NET values the scheduler computes with: identifiers, instants, durations, the
string tests of the source, and the exceptions it throws.
-/

namespace JobScheduler

/-- `Guid`, ordered as `Guid.CompareTo` orders it: by its 128 bits read as one number. The
bound on the number is left out, nothing depends on it.
-/
structure Guid where
  value : Nat
  deriving DecidableEq, Repr

theorem Guid.value_injective : Function.Injective Guid.value := by
  intro a b same
  cases a
  cases b
  simpa using same

instance : LinearOrder Guid := LinearOrder.lift' Guid.value Guid.value_injective

/-- `Guid.ToString()`: 32 lower-case hexadecimal digits in groups of 8, 4, 4, 4 and 12. -/
instance : ToString Guid where
  toString id :=
    let digit (position : Nat) : Char := Nat.digitChar (id.value / 16 ^ (31 - position) % 16)
    let group (start count : Nat) : String :=
      String.ofList ((List.range count).map (fun offset => digit (start + offset)))
    group 0 8 ++ "-" ++ group 8 4 ++ "-" ++ group 12 4 ++ "-" ++ group 16 4 ++ "-"
      ++ group 20 12

/-- `DateTimeOffset.MaxValue.UtcTicks`, the last tick of the year 9999. -/
def maxTicks : Nat := 3155378975999999999

/-- `DateTimeOffset`, as the instant it names: comparison and equality look at nothing
else, and the column converters keep nothing else.
-/
structure DateTimeOffset where
  utcTicks : Nat
  inRange : utcTicks ≤ maxTicks
  deriving DecidableEq, Repr

theorem DateTimeOffset.utcTicks_injective : Function.Injective DateTimeOffset.utcTicks := by
  intro a b same
  cases a
  cases b
  simpa using same

instance : LinearOrder DateTimeOffset :=
  LinearOrder.lift' DateTimeOffset.utcTicks DateTimeOffset.utcTicks_injective

/-- `TimeSpan`, as its tick count. -/
structure TimeSpan where
  ticks : Int
  deriving DecidableEq, Repr

/-- `TimeSpan.FromSeconds` of a whole number of seconds. -/
def TimeSpan.fromSeconds (seconds : Int) : TimeSpan := ⟨seconds * 10000000⟩

/-- The exceptions the modelled code throws, with their messages. The last one stands for
the `DbUpdateException` of a broken primary key.
-/
inductive SchedulerException
  | argument (message paramName : String)
  | argumentOutOfRange (message paramName : String)
  | invalidOperation (message : String)
  | dbUpdate
  deriving DecidableEq, Repr

/-- `DateTimeOffset.Add`, which throws when the sum is not a representable instant. -/
def DateTimeOffset.add (instant : DateTimeOffset) (span : TimeSpan)
    : Except SchedulerException DateTimeOffset :=
  if fits : 0 ≤ (instant.utcTicks : Int) + span.ticks
      ∧ (instant.utcTicks : Int) + span.ticks ≤ maxTicks then
    .ok ⟨((instant.utcTicks : Int) + span.ticks).toNat, by omega⟩
  else
    .error (.argumentOutOfRange
      "The added or subtracted value results in an un-representable DateTime." "value")

/-- `char.IsWhiteSpace`. -/
def isWhiteSpace (c : Char) : Bool :=
  (9 ≤ c.toNat && c.toNat ≤ 13)
  || (0x2000 ≤ c.toNat && c.toNat ≤ 0x200A)
  || [0x20, 0x85, 0xA0, 0x1680, 0x2028, 0x2029, 0x202F, 0x205F, 0x3000].contains c.toNat

/-- `string.IsNullOrWhiteSpace` of a string that is not null. -/
def isNullOrWhiteSpace (text : String) : Bool := text.toList.all isWhiteSpace

/-- `string.Trim()`. -/
def trim (text : String) : String :=
  String.ofList
    ((text.toList.dropWhile isWhiteSpace).reverse.dropWhile isWhiteSpace).reverse

/-- Trimming twice is trimming once: what is left of a text starts with no white space,
unless nothing is left.
-/
theorem trim_trim (text : String) : trim (trim text) = trim text := by
  have unfolded (text : String)
      : trim text
        = String.ofList ((text.toList.dropWhile isWhiteSpace).rdropWhile isWhiteSpace) :=
    rfl
  have start (chars : List Char)
      : ((chars.dropWhile isWhiteSpace).rdropWhile isWhiteSpace).dropWhile isWhiteSpace
        = (chars.dropWhile isWhiteSpace).rdropWhile isWhiteSpace := by
    rw [List.dropWhile_eq_self_iff]
    intro nonempty
    have kept : (chars.dropWhile isWhiteSpace).rdropWhile isWhiteSpace
        <+: chars.dropWhile isWhiteSpace :=
      List.rdropWhile_prefix isWhiteSpace _
    have first := List.dropWhile_get_zero_not isWhiteSpace chars
      (nonempty.trans_le kept.length_le)
    simpa [kept.getElem nonempty] using first
  rw [unfolded (trim text), unfolded text, String.toList_ofList, start,
    List.rdropWhile_idempotent]

/-- Trimming leaves something of every text that is not blank: the first and the last
character that is no white space stay.
-/
theorem isNullOrWhiteSpace_trim {text : String} (present : isNullOrWhiteSpace text = false)
    : isNullOrWhiteSpace (trim text) = false := by
  rw [isNullOrWhiteSpace, List.all_eq_false] at present ⊢
  obtain ⟨c, member, visible⟩ := present
  have afterStart : c ∈ text.toList.dropWhile isWhiteSpace := by
    have parts := List.takeWhile_append_dropWhile (p := isWhiteSpace) (l := text.toList)
    rw [← parts] at member
    rcases List.mem_append.mp member with blank | kept
    · exact absurd (List.mem_takeWhile_imp blank) visible
    · exact kept
  have parts := List.rdropWhile_append_rtakeWhile (p := isWhiteSpace)
    (l := text.toList.dropWhile isWhiteSpace)
  rw [← parts] at afterStart
  rcases List.mem_append.mp afterStart with kept | blank
  · exact ⟨c, by rw [trim, String.toList_ofList]; exact kept, visible⟩
  · exact absurd (List.mem_rtakeWhile_imp blank) visible

/-- `string.Equals` under `StringComparison.OrdinalIgnoreCase`. The simple case mapping is
that of ASCII, which decides every comparison with an ASCII constant.
-/
def equalsOrdinalIgnoreCase (left right : String) : Bool :=
  left.toList.map Char.toUpper = right.toList.map Char.toUpper

/-- The instant with the given tick count, or the last one. -/
def DateTimeOffset.ofTicks (ticks : Nat) : DateTimeOffset :=
  ⟨min ticks maxTicks, Nat.min_le_right ticks maxTicks⟩

end JobScheduler
