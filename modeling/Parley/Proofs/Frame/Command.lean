import Parley.Frame.Command
import Parley.Proofs.Text

/-!
# Reading what was written

Which commands can be read off a frame, and from which frames.  A command is read
exactly from the frames that normalize to its own frame, up to blanks behind the
word of a join or a leave, and only when it is canonical.  So a command comes
back from its own frame exactly when some frame is read as it.
-/

namespace Parley

/-- A result that was turned into another is no error. -/
theorem map_eq_ok_iff {ε α β : Type} {change : α → β} {value : Except ε α} {result : β} :
    value.map change = .ok result ↔ ∃ inner, value = .ok inner ∧ change inner = result := by
  cases value <;> simp [Except.map]

namespace Frame

open Text

/-- Text as normalization leaves it: one line, visible at both ends. -/
structure Normal (text : List Char) : Prop where
  oneLine : OneLine text
  starts : StartsVisibly text
  ends : EndsVisibly text

/-- No character of a frame ends a line once line ends count as spaces. -/
theorem oneLine_map_unbroken (frame : List Char) : OneLine (frame.map unbroken) := by
  have broken : ∀ c, unbroken c ≠ '\r' ∧ unbroken c ≠ '\n' := by
    intro c
    unfold unbroken
    split
    · decide
    · rename_i plain
      exact not_or.1 plain
  constructor
  · intro member
    obtain ⟨c, -, equal⟩ := List.mem_map.1 member
    exact (broken c).1 equal
  · intro member
    obtain ⟨c, -, equal⟩ := List.mem_map.1 member
    exact (broken c).2 equal

/-- One line has no line ends to replace. -/
theorem map_unbroken_eq_self {text : List Char} (oneLine : OneLine text) :
    text.map unbroken = text := by
  induction text with
  | nil => rfl
  | cons c rest induction =>
      rw [oneLine_cons] at oneLine
      rw [List.map_cons, induction oneLine.2, unbroken, if_neg (not_or.2 oneLine.1)]

/-- Normalization makes every frame normal. -/
theorem normal_normalizeText (frame : List Char) : Normal (normalizeText frame) where
  oneLine := (oneLine_map_unbroken frame).trim
  starts := startsVisibly_trim _
  ends := endsVisibly_trim _

/-- Normalization leaves normal text as it is. -/
theorem normalizeText_eq_self {text : List Char} (normal : Normal text) :
    normalizeText text = text := by
  rw [normalizeText, map_unbroken_eq_self normal.oneLine,
    trim_eq_self normal.starts normal.ends]

end Frame

namespace CommandWord

/-- No command word is the beginning of another, so text has one at most. -/
theorem eq_of_append_eq {word other : CommandWord} {rest rest' : List Char}
    (equal : word.text.toList ++ rest = other.text.toList ++ rest') :
    word = other ∧ rest = rest' := by
  have same : word = other := by
    cases word <;> cases other <;> simp [text] at equal ⊢
  subst same
  exact ⟨rfl, List.append_cancel_left equal⟩

/-- A command word is recognized exactly at the front of text. -/
theorem recognize?_eq_some_iff {text rest : List Char} {word : CommandWord} :
    recognize? text = some (word, rest) ↔ text = word.text.toList ++ rest := by
  have sound : ∀ {word rest}, recognize? text = some (word, rest) →
      text = word.text.toList ++ rest := by
    intro word rest found
    obtain ⟨tried, -, cut⟩ := List.exists_of_findSome?_eq_some found
    obtain ⟨behind, begins, same⟩ := Option.map_eq_some_iff.1 cut
    cases same
    exact Text.isPrefixOf?_eq_some_iff.1 begins
  refine ⟨sound, fun begins => ?_⟩
  cases found : recognize? text with
  | none =>
      have tried := List.findSome?_eq_none_iff.1 found word (by cases word <;> decide)
      rw [Text.isPrefixOf?_eq_some_iff.2 begins] at tried
      cases tried
  | some recognized =>
      obtain ⟨other, behind⟩ := recognized
      obtain ⟨rfl, rfl⟩ := eq_of_append_eq (begins.symm.trans (sound found))
      rfl

/-- No command word is recognized in text that begins with none. -/
theorem recognize?_eq_none_iff {text : List Char} :
    recognize? text = none ↔ ∀ word : CommandWord, ¬word.text.toList <+: text := by
  constructor
  · intro absent word begins
    obtain ⟨rest, equal⟩ := begins
    rw [recognize?_eq_some_iff.2 equal.symm] at absent
    cases absent
  · intro absent
    cases found : recognize? text with
    | none => rfl
    | some recognized =>
        obtain ⟨word, rest⟩ := recognized
        exact absurd ⟨rest, (recognize?_eq_some_iff.1 found).symm⟩ (absent word)

/-- Every command word begins visibly and is one line. -/
theorem text_visible (word : CommandWord) :
    word.text.toList ≠ [] ∧ Text.StartsVisibly word.text.toList ∧
      Text.OneLine word.text.toList := by
  cases word <;> decide

end CommandWord

namespace Command

open Text

/-! ## Canonical commands -/

/-- A room that a join or a leave carries: not empty, one line, no blank at
either end. -/
def IsRoom (room : String) : Prop := room ≠ "" ∧ Frame.Normal room.toList

/-- A room or recipient that a message is addressed to: not empty, one line, and
without a space, the mark of its end. -/
def IsTarget (target : String) : Prop :=
  target ≠ "" ∧ ' ' ∉ target.toList ∧ OneLine target.toList

/-- What a message to a target says: not empty, one line, no blank at its end. -/
def IsBody (body : String) : Prop :=
  body ≠ "" ∧ OneLine body.toList ∧ EndsVisibly body.toList

/-- What is said to everyone: not empty, one line, no blank at either end, and
not the beginning of any other command. -/
def IsBroadcast (body : String) : Prop :=
  body ≠ "" ∧ Frame.Normal body.toList ∧
    ∀ word : CommandWord, ¬word.text.toList <+: body.toList

/-- Commands that their own frames carry unchanged. -/
def Canonical : Command → Prop
  | .joinRoom room => IsRoom room
  | .leaveRoom room => IsRoom room
  | .roomMessage room body => IsTarget room ∧ IsBody body
  | .privateMessage recipient body => IsTarget recipient ∧ IsBody body
  | .broadcast body => IsBroadcast body

/-- The frame of a command with blanks behind the word of a join or a leave. -/
def spaced (blanks : String) : Command → String
  | .joinRoom room => CommandWord.joinRoom.text ++ (blanks ++ room)
  | .leaveRoom room => CommandWord.leaveRoom.text ++ (blanks ++ room)
  | command => command.encode

/-- With no blanks there it is the frame of the command. -/
theorem spaced_empty (command : Command) : command.spaced "" = command.encode := by
  cases command <;> simp [spaced, encode]

/-! ## The text behind a word -/

/-- Text that is one line with a visible end behind some word. -/
structure Trails (rest : List Char) : Prop where
  oneLine : OneLine rest
  ends : EndsVisibly rest

/-- What stands behind a word of normal text. -/
theorem Trails.of_normal {start rest : List Char} (normal : Frame.Normal (start ++ rest)) :
    Trails rest where
  oneLine := (oneLine_append.1 normal.oneLine).2
  ends := by
    by_cases nothing : rest = []
    · subst nothing
      simp [EndsVisibly]
    · exact (endsVisibly_append nothing).1 normal.ends

/-- Text is read as a room name exactly when it is the name with blanks in front. -/
theorem readRoom_eq_ok_iff {word : CommandWord} {rest : List Char} {room : String}
    (trails : Trails rest) :
    readRoom word rest = .ok room ↔
      IsRoom room ∧ ∃ blanks, allBlank blanks = true ∧ rest = blanks ++ room.toList := by
  constructor
  · intro read
    simp only [readRoom] at read
    split at read
    · cases read
    · rename_i nonempty
      cases read
      obtain ⟨blanks, blank, split⟩ := exists_blanks_trimStart rest
      refine ⟨⟨?_, ?_⟩, blanks, blank, ?_⟩
      · simpa [← String.toList_eq_nil_iff] using nonempty
      · rw [String.toList_ofList]
        exact ⟨trails.oneLine.trim, startsVisibly_trim rest, endsVisibly_trim rest⟩
      · rwa [String.toList_ofList, trim_eq_trimStart trails.ends]
  · rintro ⟨⟨nonempty, normal⟩, blanks, blank, rfl⟩
    have trimmed : trim (blanks ++ room.toList) = room.toList := by
      rw [trim, trimStart_append blank]
      exact trim_eq_self normal.starts normal.ends
    simp [readRoom, trimmed, String.toList_eq_nil_iff, nonempty]

/-- Text is read as a target and a body exactly when it is the two with a space
between them. -/
theorem readTarget_eq_ok_iff {word : CommandWord} {rest : List Char} {target body : String}
    (trails : Trails rest) :
    readTarget word rest = .ok (target, body) ↔
      (IsTarget target ∧ IsBody body) ∧ rest = target.toList ++ ' ' :: body.toList := by
  constructor
  · intro read
    unfold readTarget at read
    split at read
    · cases read
    · rename_i before after cut
      split at read
      · cases read
      · rename_i named
        split at read
        · cases read
        · rename_i said
          cases read
          have split := eq_of_cut? cut
          have oneLine := trails.oneLine
          have ends := trails.ends
          have nonempty : after ≠ [] := by
            rintro rfl
            exact said rfl
          rw [split, oneLine_append, oneLine_cons] at oneLine
          rw [split, ← List.singleton_append, ← List.append_assoc,
            endsVisibly_append nonempty] at ends
          refine ⟨⟨⟨?_, ?_⟩, ?_, ?_⟩, ?_⟩
          · simpa [← String.toList_eq_nil_iff] using named
          · simpa using ⟨not_mem_of_cut? cut, oneLine.1⟩
          · simpa [← String.toList_eq_nil_iff] using nonempty
          · simpa using ⟨oneLine.2.2, ends⟩
          · simpa using split
  · rintro ⟨⟨⟨named, unspaced, -⟩, said, -, ends⟩, rfl⟩
    have cut := cut?_append_cons unspaced body.toList
    have visible := ends.not_allBlank (mt String.toList_eq_nil_iff.1 said)
    simp [readTarget, cut, named, visible, String.toList_eq_nil_iff]

/-! ## Round trip -/

/-- Text behind a word is read as a command exactly when the command is canonical
and the two together are its frame, up to blanks between them. -/
theorem readBehind_eq_ok_iff {word : CommandWord} {rest : List Char} {command : Command}
    (trails : Trails rest) :
    readBehind word rest = .ok command ↔
      command.Canonical ∧ ∃ blanks, allBlank blanks = true ∧
        word.text.toList ++ rest = (command.spaced (String.ofList blanks)).toList := by
  constructor
  · intro read
    cases word with
    | joinRoom =>
        obtain ⟨room, readRoom, rfl⟩ := map_eq_ok_iff.1 read
        obtain ⟨canonical, blanks, blank, rfl⟩ := (readRoom_eq_ok_iff trails).1 readRoom
        exact ⟨canonical, blanks, blank, by simp [spaced]⟩
    | leaveRoom =>
        obtain ⟨room, readRoom, rfl⟩ := map_eq_ok_iff.1 read
        obtain ⟨canonical, blanks, blank, rfl⟩ := (readRoom_eq_ok_iff trails).1 readRoom
        exact ⟨canonical, blanks, blank, by simp [spaced]⟩
    | roomMessage =>
        obtain ⟨⟨room, body⟩, readTarget, rfl⟩ := map_eq_ok_iff.1 read
        obtain ⟨canonical, rfl⟩ := (readTarget_eq_ok_iff trails).1 readTarget
        exact ⟨canonical, [], rfl, by simp [spaced, encode]⟩
    | privateMessage =>
        obtain ⟨⟨recipient, body⟩, readTarget, rfl⟩ := map_eq_ok_iff.1 read
        obtain ⟨canonical, rfl⟩ := (readTarget_eq_ok_iff trails).1 readTarget
        exact ⟨canonical, [], rfl, by simp [spaced, encode]⟩
  · rintro ⟨canonical, blanks, blank, equal⟩
    cases command with
    | joinRoom room =>
        rw [spaced, String.toList_append] at equal
        obtain ⟨rfl, rfl⟩ := CommandWord.eq_of_append_eq equal
        rw [readBehind, (readRoom_eq_ok_iff trails).2 ⟨canonical, blanks, blank, by simp⟩]
        rfl
    | leaveRoom room =>
        rw [spaced, String.toList_append] at equal
        obtain ⟨rfl, rfl⟩ := CommandWord.eq_of_append_eq equal
        rw [readBehind, (readRoom_eq_ok_iff trails).2 ⟨canonical, blanks, blank, by simp⟩]
        rfl
    | roomMessage room body =>
        simp only [spaced, encode, String.append_assoc, String.toList_append] at equal
        obtain ⟨rfl, rfl⟩ := CommandWord.eq_of_append_eq equal
        rw [readBehind, (readTarget_eq_ok_iff trails).2 ⟨canonical, by simp⟩]
        rfl
    | privateMessage recipient body =>
        simp only [spaced, encode, String.append_assoc, String.toList_append] at equal
        obtain ⟨rfl, rfl⟩ := CommandWord.eq_of_append_eq equal
        rw [readBehind, (readTarget_eq_ok_iff trails).2 ⟨canonical, by simp⟩]
        rfl
    | broadcast body => exact absurd ⟨rest, equal⟩ (canonical.2.2 word)

/-- Every frame of a command that is no broadcast begins with a word. -/
theorem begins_or_eq_broadcast (command : Command) (blanks : String) :
    (∃ word : CommandWord, word.text.toList <+: (command.spaced blanks).toList) ∨
      ∃ body, command = .broadcast body := by
  cases command with
  | joinRoom room => exact .inl ⟨.joinRoom, by simp [spaced]⟩
  | leaveRoom room => exact .inl ⟨.leaveRoom, by simp [spaced]⟩
  | roomMessage room body => exact .inl ⟨.roomMessage, by simp [spaced, encode]⟩
  | privateMessage recipient body => exact .inl ⟨.privateMessage, by simp [spaced, encode]⟩
  | broadcast body => exact .inr ⟨body, rfl⟩

/-- Normal text is read as a command exactly when the command is canonical and
the text is its frame, up to blanks behind the word of a join or a leave. -/
theorem readNormal_eq_ok_iff {text : List Char} {command : Command}
    (normal : Frame.Normal text) :
    readNormal text = .ok command ↔
      command.Canonical ∧ ∃ blanks, allBlank blanks = true ∧
        text = (command.spaced (String.ofList blanks)).toList := by
  cases found : CommandWord.recognize? text with
  | some recognized =>
      obtain ⟨word, rest⟩ := recognized
      obtain rfl := CommandWord.recognize?_eq_some_iff.1 found
      have nonempty : (word.text.toList ++ rest).isEmpty = false := by
        simp [word.text_visible.1]
      rw [← readBehind_eq_ok_iff (Trails.of_normal normal)]
      simp only [readNormal, nonempty, found, Bool.false_eq_true, if_false]
  | none =>
      have wordless := CommandWord.recognize?_eq_none_iff.1 found
      constructor
      · intro read
        simp only [readNormal, found] at read
        split at read
        · cases read
        · rename_i nonempty
          cases read
          refine ⟨⟨?_, by simpa using normal, by simpa using wordless⟩, [], rfl, ?_⟩
          · simpa [← String.toList_eq_nil_iff] using nonempty
          · simp [spaced, encode]
      · rintro ⟨canonical, blanks, -, rfl⟩
        rcases begins_or_eq_broadcast command (String.ofList blanks) with
          ⟨word, begins⟩ | ⟨body, rfl⟩
        · exact absurd begins (wordless word)
        · have nonempty : body.toList.isEmpty = false := by
            simpa [String.toList_eq_nil_iff] using canonical.1
          simp only [spaced, encode] at found ⊢
          simp [readNormal, nonempty, found]

/-- The frame of a canonical command is normal. -/
theorem Canonical.normal_encode {command : Command} (canonical : command.Canonical) :
    Frame.Normal command.encode.toList := by
  have behind : ∀ (word : CommandWord) {rest : List Char}, rest ≠ [] → Trails rest →
      Frame.Normal (word.text.toList ++ rest) := by
    intro word rest nonempty trails
    obtain ⟨written, starts, oneLine⟩ := word.text_visible
    exact ⟨oneLine_append.2 ⟨oneLine, trails.oneLine⟩, StartsVisibly.append starts written rest,
      (endsVisibly_append nonempty).2 trails.ends⟩
  have addressed : ∀ {target body : String}, IsTarget target → IsBody body →
      Trails (target.toList ++ ' ' :: body.toList) := by
    rintro target body ⟨-, -, targetLine⟩ ⟨nonempty, bodyLine, ends⟩
    refine ⟨by simp [targetLine, bodyLine], ?_⟩
    rw [← List.singleton_append, ← List.append_assoc,
      endsVisibly_append (mt String.toList_eq_nil_iff.1 nonempty)]
    exact ends
  cases command with
  | joinRoom room =>
      rw [encode, String.toList_append]
      exact behind _ (mt String.toList_eq_nil_iff.1 canonical.1)
        ⟨canonical.2.oneLine, canonical.2.ends⟩
  | leaveRoom room =>
      rw [encode, String.toList_append]
      exact behind _ (mt String.toList_eq_nil_iff.1 canonical.1)
        ⟨canonical.2.oneLine, canonical.2.ends⟩
  | roomMessage room body =>
      simpa [encode] using behind .roomMessage (by simp) (addressed canonical.1 canonical.2)
  | privateMessage recipient body =>
      simpa [encode] using behind .privateMessage (by simp) (addressed canonical.1 canonical.2)
  | broadcast body => exact canonical.2.1

/-- A frame is read as a command exactly when the command is canonical and the
normalized frame is its own frame, up to blanks behind the word of a join or a
leave. -/
theorem parse_eq_ok_iff {frame : String} {command : Command} :
    parse frame = .ok command ↔
      command.Canonical ∧ ∃ blanks, allBlank blanks = true ∧
        Frame.normalize frame = command.spaced (String.ofList blanks) := by
  simp only [parse, readNormal_eq_ok_iff (Frame.normal_normalizeText frame.toList),
    Frame.normalize, ← String.toList_inj, String.toList_ofList]

/-- A canonical command comes back from its own frame. -/
theorem Canonical.parse_encode {command : Command} (canonical : command.Canonical) :
    parse command.encode = .ok command := by
  refine parse_eq_ok_iff.2 ⟨canonical, [], rfl, ?_⟩
  rw [Frame.normalize, Frame.normalizeText_eq_self canonical.normal_encode,
    String.ofList_toList]
  exact command.spaced_empty.symm

/-- Reading undoes writing exactly on the commands that can be read.  A command
comes back from its own frame when it is canonical and only then; whatever frame
a command is read from, the command is canonical and the normalized frame is its
own up to blanks behind the word of a join or a leave; and so the commands that
come back from their own frames are those that come from any frame at all. -/
theorem parse_undoes_encode :
    (∀ command : Command, parse command.encode = .ok command ↔ command.Canonical) ∧
    (∀ (frame : String) (command : Command),
      parse frame = .ok command ↔
        command.Canonical ∧ ∃ blanks, allBlank blanks = true ∧
          Frame.normalize frame = command.spaced (String.ofList blanks)) ∧
    (∀ command : Command,
      (∃ frame, parse frame = .ok command) ↔ parse command.encode = .ok command) := by
  have returns : ∀ command : Command, command.Canonical → parse command.encode = .ok command := by
    intro command canonical
    refine parse_eq_ok_iff.2 ⟨canonical, [], rfl, ?_⟩
    rw [Frame.normalize, Frame.normalizeText_eq_self canonical.normal_encode,
      String.ofList_toList]
    exact command.spaced_empty.symm
  refine ⟨fun command => ⟨fun read => (parse_eq_ok_iff.1 read).1, returns command⟩,
    fun frame command => parse_eq_ok_iff, fun command => ⟨?_, fun read => ⟨_, read⟩⟩⟩
  rintro ⟨frame, read⟩
  exact returns command (parse_eq_ok_iff.1 read).1

/-- Only spaces end a target, so other blanks stay part of it. -/
example : parse "room_message:\tlobby  hi\r\n" = .ok (.roomMessage "\tlobby" " hi") := rfl

/-- A broadcast that begins with a command word is read as that command. -/
example : parse (encode (.broadcast "join_room:lobby")) = .ok (.joinRoom "lobby") := rfl

end Command
end Parley
