import Parley.Name.Random
import Parley.Proofs.Name
import Parley.Proofs.Text.Utf8

/-!
# The cause for which a name is refused

A text has one verdict as a name: it is empty, or has too many characters, or has a
character that is not allowed, or is accepted as it stands.  Room names are judged so, all
of them.  Connection ids are measured in bytes, and for display names their length is no
cause of its own, so for some texts these two give another cause than the real one.  Which
texts are accepted is right for all three.
-/

namespace Parley
namespace NameKind

/-- The most characters of a name. -/
def limit : NameKind → Nat
  | .connectionId => Name.idLimit
  | .displayName => Name.displayLimit
  | .roomName => Name.roomLimit

/-- Whether a character may stand in a name. -/
def allows : NameKind → Char → Bool
  | .connectionId, c => Name.isIdCharacter c
  | .displayName, c => Name.isDisplayCharacter c
  | .roomName, c => !Text.isBlank c

/-- What a text is as a name: its length counts in characters, and comes before them. -/
def verdict (kind : NameKind) (text : String) : Except NameError String :=
  if text = "" then .error (.empty kind)
  else if kind.limit < text.length then .error (.tooLong kind kind.limit)
  else if text.toList.any fun c => !kind.allows c then .error (.invalidCharacters kind)
  else .ok text

/-- Make a name of a text, and read its text back. -/
def make : NameKind → String → Except NameError String
  | .connectionId, text => (ConnectionId.ofString text).map ConnectionId.text
  | .displayName, text => (DisplayName.ofString text).map DisplayName.text
  | .roomName, text => (RoomName.ofString text).map RoomName.text

/-- The texts that are refused for another cause than the real one: connection ids that
have more bytes than they may have characters, but not more characters, and display names
that are too long. -/
def Misjudges : NameKind → String → Prop
  | .connectionId, text =>
      text.length ≤ Name.idLimit ∧ Name.idLimit < Utf8.byteCount text.toList
  | .displayName, text => Name.displayLimit < text.length
  | .roomName, _ => False

/-- The cause that is given instead. -/
def excuse : NameKind → NameError
  | .connectionId => .tooLong .connectionId Name.idLimit
  | kind => .invalidCharacters kind

instance (kind : NameKind) (text : String) : Decidable (kind.Misjudges text) := by
  unfold Misjudges
  split <;> infer_instance

/-- What a check has found out about a text. -/
def report (text : String) : Option NameError → Except NameError String
  | none => .ok text
  | some cause => .error cause

/-- The check of each kind. -/
def fault : NameKind → List Char → Option NameError
  | .connectionId => Name.idFault
  | .displayName => Name.displayFault
  | .roomName => Name.roomFault

/-- A name is made of each text that its check lets pass, and keeps it. -/
theorem make_eq (kind : NameKind) (text : String) :
    kind.make text = report text (kind.fault text.toList) := by
  cases kind with
  | connectionId =>
      change (ConnectionId.ofString text).map _ = report text (Name.idFault text.toList)
      unfold ConnectionId.ofString
      split <;> exact (congrArg (report text) ‹_›).symm
  | displayName =>
      change (DisplayName.ofString text).map _ = report text (Name.displayFault text.toList)
      unfold DisplayName.ofString
      split <;> exact (congrArg (report text) ‹_›).symm
  | roomName =>
      change (RoomName.ofString text).map _ = report text (Name.roomFault text.toList)
      unfold RoomName.ofString
      split <;> exact (congrArg (report text) ‹_›).symm

/-- A verdict asks the same questions as the checks. -/
theorem verdict_eq (kind : NameKind) (text : String) :
    kind.verdict text = report text
      (if text.toList.isEmpty then some (.empty kind)
      else if kind.limit < text.toList.length then some (.tooLong kind kind.limit)
      else if text.toList.all kind.allows then none
      else some (.invalidCharacters kind)) := by
  have unfit : (text.toList.any fun c => !kind.allows c) = true ↔
      ¬(text.toList.all kind.allows = true) := by simp
  unfold verdict
  simp only [List.isEmpty_iff, String.toList_eq_nil_iff, String.length_toList, unfit]
  split
  · rfl
  · split
    · rfl
    · split <;> simp_all [report]

/-! ## Room names -/

theorem fault_roomName (text : List Char) :
    fault .roomName text =
      if text.isEmpty then some (.empty .roomName)
      else if limit .roomName < text.length then some (.tooLong .roomName (limit .roomName))
      else if text.all (allows .roomName) then none
      else some (.invalidCharacters .roomName) := by
  have unblank : text.all (allows .roomName) = !text.any Text.isBlank :=
    List.not_any_eq_all_not.symm
  change Name.roomFault text = _
  unfold Name.roomFault
  rw [unblank]
  cases text.any Text.isBlank <;> rfl

/-! ## Connection ids -/

variable {text : List Char}

/-- Text of characters that ids and display names may have takes a byte for each. -/
theorem byteCount_eq_length (plain : text.all Name.isDisplayCharacter = true) :
    Utf8.byteCount text = text.length := by
  refine ConnectionId.byteCount_eq_length (List.all_eq_true.2 fun c member => ?_)
  rw [beq_iff_eq]
  exact Name.utf8Size_of_isDisplayCharacter (List.all_eq_true.1 plain c member)

/-- An id that has too many bytes is too long, if not in characters. -/
theorem idFault_of_misjudged (more : Name.idLimit < Utf8.byteCount text) :
    Name.idFault text = some (.tooLong .connectionId Name.idLimit) := by
  have nonempty : text.isEmpty = false := by
    cases text with
    | nil => cases more
    | cons c rest => rfl
  simp [Name.idFault, nonempty, more]

theorem idFault_of_judged
    (judged : ¬(text.length ≤ Name.idLimit ∧ Name.idLimit < Utf8.byteCount text)) :
    Name.idFault text =
      if text.isEmpty then some (.empty .connectionId)
      else if Name.idLimit < text.length then some (.tooLong .connectionId Name.idLimit)
      else if text.all Name.isIdCharacter then none
      else some (.invalidCharacters .connectionId) := by
  have least := Utf8.length_le_byteCount text
  have long : Utf8.byteCount text > Name.idLimit ↔ Name.idLimit < text.length := by omega
  unfold Name.idFault
  simp only [long]

/-! ## Display names -/

theorem displayFault_of_misjudged (long : Name.displayLimit < text.length) :
    Name.displayFault text = some (.invalidCharacters .displayName) := by
  have least := Utf8.length_le_byteCount text
  have nonempty : text.isEmpty = false := by
    cases text with
    | nil => cases long
    | cons c rest => rfl
  have unfit : Name.isDisplay text = false := by
    simp only [Name.isDisplay, Bool.and_eq_false_iff, decide_eq_false_iff_not]
    omega
  simp [Name.displayFault, nonempty, unfit]

theorem displayFault_of_judged (short : ¬Name.displayLimit < text.length) :
    Name.displayFault text =
      if text.isEmpty then some (.empty .displayName)
      else if Name.displayLimit < text.length then
        some (.tooLong .displayName Name.displayLimit)
      else if text.all Name.isDisplayCharacter then none
      else some (.invalidCharacters .displayName) := by
  unfold Name.displayFault
  rw [if_neg short]
  cases nonempty : text.isEmpty with
  | true => rfl
  | false =>
      have same : Name.isDisplay text = text.all Name.isDisplayCharacter := by
        cases plain : text.all Name.isDisplayCharacter with
        | false => simp [Name.isDisplay, plain]
        | true =>
            have size := byteCount_eq_length plain
            simp only [Name.isDisplay, nonempty, plain, Bool.not_false, Bool.true_and,
              Bool.and_true, decide_eq_true_eq]
            omega
      rw [same]

/-! ## All names -/

/-- A text that is misjudged is refused, for the cause that its kind gives instead. -/
theorem make_of_misjudged {kind : NameKind} {text : String} (misjudged : kind.Misjudges text) :
    kind.make text = .error kind.excuse := by
  rw [make_eq]
  cases kind with
  | connectionId => exact congrArg (report text) (idFault_of_misjudged misjudged.2)
  | displayName =>
      refine congrArg (report text) (displayFault_of_misjudged ?_)
      rw [String.length_toList]
      exact misjudged
  | roomName => exact misjudged.elim

theorem make_of_judged {kind : NameKind} {text : String} (judged : ¬kind.Misjudges text) :
    kind.make text = kind.verdict text := by
  rw [make_eq, verdict_eq]
  cases kind with
  | connectionId =>
      refine congrArg (report text) (idFault_of_judged ?_)
      rw [String.length_toList]
      exact judged
  | displayName =>
      refine congrArg (report text) (displayFault_of_judged ?_)
      rw [String.length_toList]
      exact judged
  | roomName => exact congrArg (report text) (fault_roomName text.toList)

/-- The cause that is given for a text that is misjudged is not its own. -/
theorem verdict_ne_of_misjudged {kind : NameKind} {text : String}
    (misjudged : kind.Misjudges text) : kind.verdict text ≠ .error kind.excuse := by
  cases kind with
  | roomName => exact misjudged.elim
  | displayName =>
      have nonempty : text ≠ "" := by
        rintro rfl
        cases misjudged
      have long : NameKind.displayName.limit < text.length := misjudged
      simp [verdict, nonempty, long, excuse]
  | connectionId =>
      obtain ⟨short, more⟩ := misjudged
      have fits : ¬NameKind.connectionId.limit < text.length := Nat.not_lt.2 short
      unfold verdict
      rw [if_neg fits]
      split
      · simp [excuse]
      · split <;> simp [excuse]

/-- Every text is judged rightly as a room name.  As a connection id it is refused as too
long when it has too many bytes, be its characters few or not allowed, and as a display name
it is refused for its characters when it has too many of them, be they allowed or not; all
other texts get their verdict, and an accepted one is kept as it stands. -/
theorem names_are_refused_for_their_cause (kind : NameKind) (text : String) :
    kind.make text =
        (if kind.Misjudges text then .error kind.excuse else kind.verdict text) ∧
      (kind.make text = kind.verdict text ↔ ¬kind.Misjudges text) := by
  by_cases misjudged : kind.Misjudges text
  · rw [if_pos misjudged, make_of_misjudged misjudged]
    exact ⟨rfl, iff_of_false (verdict_ne_of_misjudged misjudged).symm (not_not_intro misjudged)⟩
  · rw [if_neg misjudged, make_of_judged misjudged]
    exact ⟨rfl, iff_of_true rfl misjudged⟩

/-- A name of 65 letters is told that its characters are invalid, and an id of 33 characters
that it must be at most 64 characters. -/
theorem long_name_is_blamed_on_its_characters :
    let name := String.ofList (List.replicate 65 'a')
    let id := String.ofList (List.replicate 33 'é')
    (NameKind.displayName.make name).mapError NameError.message =
        .error "display name contains invalid characters" ∧
      NameKind.displayName.verdict name = .error (.tooLong .displayName 64) ∧
      (NameKind.connectionId.make id).mapError NameError.message =
        .error "connection id must be at most 64 characters" ∧
      NameKind.connectionId.verdict id = .error (.invalidCharacters .connectionId) ∧
      ¬∀ (kind : NameKind) (text : String), kind.make text = kind.verdict text := by
  intro name id
  have blamed : NameKind.displayName.make name = .error (.invalidCharacters .displayName) :=
    make_of_misjudged (by decide +kernel)
  have long : NameKind.displayName.verdict name = .error (.tooLong .displayName 64) := by
    rw [verdict_eq, String.toList_ofList]
    rfl
  have measured : NameKind.connectionId.make id = .error (.tooLong .connectionId 64) :=
    make_of_misjudged (by decide +kernel)
  have foreign : NameKind.connectionId.verdict id = .error (.invalidCharacters .connectionId) := by
    rw [verdict_eq, String.toList_ofList]
    rfl
  refine ⟨?_, long, ?_, foreign, fun judged => ?_⟩
  · rw [blamed]
    rfl
  · rw [measured]
    rfl
  · have same := judged .displayName name
    rw [blamed, long] at same
    cases same

end NameKind
end Parley
