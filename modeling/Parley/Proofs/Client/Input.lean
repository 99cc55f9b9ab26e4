import Parley.Client.Input
import Parley.Proofs.Frame.Command
import Parley.Proofs.Name

/-!
# What typed lines ask for

A line with a slash is a command of the terminal, and any other line is a frame as it
stands.  The hub reads the frame of a terminal command as the command that was typed, with
the arguments as they were typed.  It reads any other line as a broadcast of that line,
unless the line itself begins with a command word.
-/

namespace Parley

open Text

namespace SlashCommand

/-! ## Arguments -/

/-- Arguments that are one word, with or without blanks around it. -/
structure Names (arguments : List Char) (name : String) : Prop where
  trimmed : trim arguments = name.toList
  word : IsWord name.toList

/-- Arguments that address a text: the target reaches to the first space, and what stands
behind that space is the text, with or without blanks around it. -/
def Addresses (arguments : List Char) (target text : String) : Prop :=
  ∃ behind, trim arguments = target.toList ++ ' ' :: behind ∧ ' ' ∉ target.toList ∧
    trim behind = text.toList ∧ text ≠ ""

/-- The command that the text behind a slash asks a hub for: the word in front of the first
space says which, and the rest are its arguments. -/
inductive Asks (rest : List Char) : Command → Prop
  | join {arguments : List Char} {room : String}
      (typed : rest = "join".toList ++ ' ' :: arguments) (names : Names arguments room) :
      Asks rest (.joinRoom room)
  | leave {arguments : List Char} {room : String}
      (typed : rest = "leave".toList ++ ' ' :: arguments) (names : Names arguments room) :
      Asks rest (.leaveRoom room)
  | room {arguments : List Char} {room body : String}
      (typed : rest = "room".toList ++ ' ' :: arguments)
      (addresses : Addresses arguments room body) : Asks rest (.roomMessage room body)
  | msg {arguments : List Char} {recipient body : String}
      (typed : rest = "msg".toList ++ ' ' :: arguments)
      (addresses : Addresses arguments recipient body) :
      Asks rest (.privateMessage recipient body)

variable {arguments rest : List Char} {name target text : String}

theorem singleArgument_eq_some_iff :
    singleArgument (trim arguments) = some name ↔ Names arguments name := by
  unfold singleArgument
  constructor
  · intro single
    split at single
    · cases single
    · rename_i word
      cases single
      rw [Bool.or_eq_true, not_or, List.isEmpty_iff, List.any_eq_true] at word
      refine ⟨by simp, ?_, fun c member => Bool.eq_false_iff.2 fun blank => ?_⟩
      · simpa using word.1
      · exact word.2 ⟨c, by simpa using member, blank⟩
  · rintro ⟨trimmed, nonempty, visible⟩
    have word : ¬((name.toList.isEmpty || name.toList.any isBlank) = true) := by
      rw [Bool.or_eq_true, not_or, List.isEmpty_iff, List.any_eq_true]
      refine ⟨nonempty, ?_⟩
      rintro ⟨c, member, blank⟩
      rw [visible c member] at blank
      cases blank
    rw [trimmed, if_neg word, String.ofList_toList]

theorem targetAndText_eq_some_iff :
    targetAndText (trim arguments) = some (target, text) ↔ Addresses arguments target text := by
  unfold targetAndText
  constructor
  · intro both
    split at both
    · rename_i before behind cut
      dsimp only at both
      split at both
      · cases both
      · rename_i said
        cases both
        refine ⟨behind, ?_, ?_, by simp, ?_⟩
        · simpa using eq_of_cut? cut
        · simpa using not_mem_of_cut? cut
        · simpa [← String.toList_eq_nil_iff] using said
    · cases both
  · rintro ⟨behind, split, unspaced, trimmed, said⟩
    have visible : text.toList.isEmpty = false := by simpa [String.toList_eq_nil_iff] using said
    simp [split, cut?_append_cons unspaced, trimmed, visible]

/-! ## Lines with a slash -/

/-- The word of a line reaches to the first space, when there are arguments at all. -/
theorem splitWord_eq_iff {word : List Char} (some_arguments : arguments ≠ []) :
    Input.splitWord rest = (word, arguments) ↔
      ' ' ∉ word ∧ rest = word ++ ' ' :: arguments := by
  unfold Input.splitWord
  constructor
  · intro split
    cases cut : cut? ' ' rest with
    | none =>
        rw [cut] at split
        cases split
        exact absurd rfl some_arguments
    | some halves =>
        rw [cut, Option.getD_some] at split
        subst split
        exact ⟨not_mem_of_cut? cut, eq_of_cut? cut⟩
  · rintro ⟨unspaced, rfl⟩
    rw [cut?_append_cons unspaced, Option.getD_some]

/-- Arguments that say something are there. -/
theorem Names.ne_nil (names : Names arguments name) : arguments ≠ [] := by
  rintro rfl
  exact names.word.nonempty names.trimmed.symm

theorem Addresses.ne_nil (addresses : Addresses arguments target text) : arguments ≠ [] := by
  rintro rfl
  obtain ⟨behind, split, -⟩ := addresses
  exact List.append_ne_nil_of_right_ne_nil _ (List.cons_ne_nil _ _) split.symm

/-- Each command is listed with the words that stand for it. -/
theorem mem_of_ofWord? {word : String} {command : SlashCommand}
    (found : ofWord? word = some command) :
    (word, command) ∈ [("join", join), ("leave", leave), ("room", .room), ("msg", msg),
      ("help", help), ("quit", quit), ("exit", quit)] := by
  obtain ⟨before, after, split, -⟩ := List.lookup_eq_some_iff.1 found
  rw [split]
  exact List.mem_append_right _ List.mem_cons_self

theorem readSlash_eq_ok_iff {word : List Char} {input : Input}
    (split : Input.splitWord rest = (word, arguments)) :
    Input.readSlash rest = .ok input ↔
      ∃ command, ofWord? (String.ofList word) = some command ∧
        command.input? (trim arguments) = some input := by
  unfold Input.readSlash
  simp only [split]
  cases ofWord? (String.ofList word) with
  | none => simp
  | some command => cases read : command.input? (trim arguments) <;> simp [read]

/-- The text behind a slash is sent as a frame exactly when it asks a hub for a command,
whose own frame that is. -/
theorem readSlash_eq_frame_iff {frame : String} :
    Input.readSlash rest = .ok (.frame frame) ↔
      ∃ command, Asks rest command ∧ frame = command.encode := by
  constructor
  · intro sent
    obtain ⟨word, arguments, split⟩ : ∃ word arguments, Input.splitWord rest = (word, arguments) :=
      ⟨_, _, rfl⟩
    obtain ⟨command, found, read⟩ := (readSlash_eq_ok_iff split).1 sent
    have typed (present : arguments ≠ []) : rest = word ++ ' ' :: arguments :=
      ((splitWord_eq_iff present).1 split).2
    have listed := mem_of_ofWord? found
    cases command with
    | join =>
        obtain rfl : word = "join".toList := by simpa [← String.toList_inj] using listed
        obtain ⟨room, single, same⟩ := Option.map_eq_some_iff.1 read
        cases same
        have names := singleArgument_eq_some_iff.1 single
        exact ⟨_, .join (typed names.ne_nil) names, rfl⟩
    | leave =>
        obtain rfl : word = "leave".toList := by simpa [← String.toList_inj] using listed
        obtain ⟨room, single, same⟩ := Option.map_eq_some_iff.1 read
        cases same
        have names := singleArgument_eq_some_iff.1 single
        exact ⟨_, .leave (typed names.ne_nil) names, rfl⟩
    | room =>
        obtain rfl : word = "room".toList := by simpa [← String.toList_inj] using listed
        obtain ⟨⟨room, body⟩, both, same⟩ := Option.map_eq_some_iff.1 read
        cases same
        have addresses := targetAndText_eq_some_iff.1 both
        exact ⟨_, .room (typed addresses.ne_nil) addresses, rfl⟩
    | msg =>
        obtain rfl : word = "msg".toList := by simpa [← String.toList_inj] using listed
        obtain ⟨⟨recipient, body⟩, both, same⟩ := Option.map_eq_some_iff.1 read
        cases same
        have addresses := targetAndText_eq_some_iff.1 both
        exact ⟨_, .msg (typed addresses.ne_nil) addresses, rfl⟩
    | help => cases read
    | quit => cases read
  · rintro ⟨command, asks, rfl⟩
    cases asks with
    | join typed names =>
        have split := (splitWord_eq_iff names.ne_nil).2 ⟨by decide, typed⟩
        refine (readSlash_eq_ok_iff split).2 ⟨join, rfl, ?_⟩
        rw [input?, singleArgument_eq_some_iff.2 names]
        rfl
    | leave typed names =>
        have split := (splitWord_eq_iff names.ne_nil).2 ⟨by decide, typed⟩
        refine (readSlash_eq_ok_iff split).2 ⟨leave, rfl, ?_⟩
        rw [input?, singleArgument_eq_some_iff.2 names]
        rfl
    | room typed addresses =>
        have split := (splitWord_eq_iff addresses.ne_nil).2 ⟨by decide, typed⟩
        refine (readSlash_eq_ok_iff split).2 ⟨room, rfl, ?_⟩
        rw [input?, targetAndText_eq_some_iff.2 addresses]
        rfl
    | msg typed addresses =>
        have split := (splitWord_eq_iff addresses.ne_nil).2 ⟨by decide, typed⟩
        refine (readSlash_eq_ok_iff split).2 ⟨msg, rfl, ?_⟩
        rw [input?, targetAndText_eq_some_iff.2 addresses]
        rfl

/-! ## The commands of slashes -/

theorem Names.isRoom (names : Names arguments name) (oneLine : OneLine arguments) :
    Command.IsRoom name := by
  refine ⟨mt String.toList_eq_nil_iff.2 names.word.nonempty, ?_, names.word.startsVisibly,
    names.word.endsVisibly⟩
  rw [← names.trimmed]
  exact oneLine.trim

theorem Addresses.canonical (addresses : Addresses arguments target text)
    (oneLine : OneLine arguments) : Command.IsTarget target ∧ Command.IsBody text := by
  obtain ⟨behind, split, unspaced, trimmed, said⟩ := addresses
  have parts := oneLine.trim
  rw [split, oneLine_append, oneLine_cons] at parts
  -- the arguments are trimmed, so no space stands in front of them
  have named : target ≠ "" := by
    rintro rfl
    have starts := startsVisibly_trim arguments
    rw [split] at starts
    exact absurd (starts ' ' rfl) (by simp)
  refine ⟨⟨named, unspaced, parts.1⟩, said, ?_, ?_⟩
  · rw [← trimmed]
    exact parts.2.2.trim
  · rw [← trimmed]
    exact endsVisibly_trim behind

/-- What is asked for on one line is a canonical command. -/
theorem Asks.canonical {command : Command} (asks : Asks rest command) (oneLine : OneLine rest) :
    command.Canonical := by
  have behind {word arguments : List Char} (typed : rest = word ++ ' ' :: arguments) :
      OneLine arguments := by
    rw [typed, oneLine_append, oneLine_cons] at oneLine
    exact oneLine.2.2
  cases asks with
  | join typed names => exact names.isRoom (behind typed)
  | leave typed names => exact names.isRoom (behind typed)
  | room typed addresses => exact addresses.canonical (behind typed)
  | msg typed addresses => exact addresses.canonical (behind typed)

end SlashCommand

namespace Input

/-- The hub reads the frame that a line is sent as as a command. -/
def Carries (line : String) (command : Command) : Prop :=
  ∃ frame, parse line = some (.ok (.frame frame)) ∧ Command.parse frame = .ok command

theorem parse_of_slash {line : String} {rest : List Char}
    (slash : trim line.toList = '/' :: rest) : parse line = some (readSlash rest) := by
  unfold parse
  rw [slash]
  rfl

/-- A line without a slash is sent as it stands. -/
theorem parse_of_plain {line : String} (said : trim line.toList ≠ [])
    (plain : (trim line.toList).head? ≠ some '/') :
    parse line = some (.ok (.frame (String.ofList (trim line.toList)))) := by
  unfold parse
  split
  · rename_i nothing
    exact absurd nothing said
  · rename_i rest slash
    rw [slash] at plain
    exact absurd rfl plain
  · rfl

theorem carries_of_asks {line : String} {rest : List Char} {command : Command}
    (oneLine : OneLine line.toList) (slash : trim line.toList = '/' :: rest)
    (asks : SlashCommand.Asks rest command) : Carries line command := by
  have behind : OneLine rest := by
    have trimmed := oneLine.trim
    rw [slash, oneLine_cons] at trimmed
    exact trimmed.2
  refine ⟨command.encode, ?_, (asks.canonical behind).parse_encode⟩
  rw [parse_of_slash slash, SlashCommand.readSlash_eq_frame_iff.2 ⟨command, asks, rfl⟩]

/-- Of a line with a slash only blanks at its end are dropped. -/
theorem trim_slash (start : List Char) {text : List Char} (said : trim text ≠ []) :
    trim ('/' :: (start ++ ' ' :: text)) = '/' :: (start ++ ' ' :: trimEnd text) := by
  have visible : StartsVisibly ('/' :: (start ++ [' '])) := by
    intro c first
    cases first
    decide
  simpa using trim_append visible (List.cons_ne_nil _ _) said

section

variable {line : String} {word : List Char} {command : Command} (oneLine : OneLine word)

include oneLine

/-- A command that names something is typed with the name behind its word. -/
theorem carries_of_name {name : String} (named : IsWord name.toList)
    (typed : line.toList = '/' :: (word ++ ' ' :: name.toList))
    (asks : ∀ arguments, SlashCommand.Names arguments name →
      SlashCommand.Asks (word ++ ' ' :: arguments) command) : Carries line command := by
  have trimmed : trim name.toList = name.toList :=
    trim_eq_self named.startsVisibly named.endsVisibly
  have slash : trim line.toList = '/' :: (word ++ ' ' :: name.toList) := by
    rw [typed, trim_slash word (by rw [trimmed]; exact named.nonempty),
      trimEnd_eq_self named.endsVisibly]
  refine carries_of_asks ?_ slash (asks _ ⟨trimmed, named⟩)
  simp [typed, oneLine, named.oneLine]

/-- A command that addresses a text is typed with target and text behind its word. -/
theorem carries_of_text {target body : String} (named : IsWord target.toList)
    (bodyLine : OneLine body.toList) (said : trim body.toList ≠ [])
    (typed : line.toList = '/' :: (word ++ ' ' :: (target.toList ++ ' ' :: body.toList)))
    (asks : ∀ arguments,
      SlashCommand.Addresses arguments target (String.ofList (trim body.toList)) →
      SlashCommand.Asks (word ++ ' ' :: arguments) command) : Carries line command := by
  have spaced (text : List Char) :
      '/' :: (word ++ ' ' :: (target.toList ++ ' ' :: text)) =
        '/' :: ((word ++ ' ' :: target.toList) ++ ' ' :: text) := by simp
  have slash : trim line.toList =
      '/' :: (word ++ ' ' :: (target.toList ++ ' ' :: trimEnd body.toList)) := by
    rw [typed, spaced, trim_slash _ said, ← spaced]
  have starts : StartsVisibly (target.toList ++ [' ']) :=
    named.startsVisibly.append named.nonempty _
  have arguments : trim (target.toList ++ ' ' :: trimEnd body.toList) =
      target.toList ++ ' ' :: trimEnd body.toList := by
    have kept := trim_append starts (by simp) (by rwa [trim_trimEnd])
    rw [trimEnd_eq_self (endsVisibly_trimEnd _)] at kept
    simpa using kept
  refine carries_of_asks ?_ slash (asks _ ⟨_, arguments, named.unspaced, ?_, ?_⟩)
  · simp [typed, oneLine, named.oneLine, bodyLine]
  · rw [trim_trimEnd, String.toList_ofList]
  · rwa [ne_eq, ← String.toList_eq_nil_iff, String.toList_ofList]

end

/-- A terminal command means to the hub what was typed.  A line with a slash that is sent as
a frame is read as the command that its text asks for, every command that is asked for is
sent and read so, and every name and every text that is not blank can be typed. -/
theorem slash_commands_keep_their_arguments :
    (∀ (line : String) (rest : List Char), OneLine line.toList →
      trim line.toList = '/' :: rest →
        (∀ frame, parse line = some (.ok (.frame frame)) →
          ∃ command, SlashCommand.Asks rest command ∧ Command.parse frame = .ok command) ∧
        ∀ command, SlashCommand.Asks rest command → Carries line command) ∧
      (∀ room : RoomName, Carries ("/join " ++ room.text) (.joinRoom room.text) ∧
        Carries ("/leave " ++ room.text) (.leaveRoom room.text)) ∧
      ∀ body : String, OneLine body.toList → trim body.toList ≠ [] →
        let text := String.ofList (trim body.toList)
        (∀ room : RoomName,
          Carries ("/room " ++ room.text ++ " " ++ body) (.roomMessage room.text text)) ∧
        ∀ name : DisplayName,
          Carries ("/msg " ++ name.text ++ " " ++ body) (.privateMessage name.text text) := by
  refine ⟨fun line rest oneLine slash => ⟨fun frame sent => ?_, fun command asks =>
    carries_of_asks oneLine slash asks⟩, fun room => ⟨?_, ?_⟩, fun body oneLine said =>
    ⟨fun room => ?_, fun name => ?_⟩⟩
  · rw [parse_of_slash slash, Option.some_inj, SlashCommand.readSlash_eq_frame_iff] at sent
    obtain ⟨command, asks, rfl⟩ := sent
    obtain ⟨frame, carried, read⟩ := carries_of_asks oneLine slash asks
    rw [parse_of_slash slash, SlashCommand.readSlash_eq_frame_iff.2 ⟨command, asks, rfl⟩] at carried
    cases carried
    exact ⟨command, asks, read⟩
  · exact carries_of_name (by decide) room.isWord (by simp) fun _ names => .join rfl names
  · exact carries_of_name (by decide) room.isWord (by simp) fun _ names => .leave rfl names
  · exact carries_of_text (by decide) room.isWord oneLine said (by simp)
      fun _ addresses => .room rfl addresses
  · exact carries_of_text (by decide) name.isWord oneLine said (by simp)
      fun _ addresses => .msg rfl addresses

/-- Tabs, wide spaces and repeated spaces around the arguments: the room keeps its tab, which
is no space, and the text loses only the blanks around it. -/
theorem slash_command_among_blanks :
    let line := "\t/room  my\troom  hello \u3000 there \u3000 "
    let rest := "room  my\troom  hello \u3000 there".toList
    let frame := "room_message:my\troom hello \u3000 there"
    let bob : DisplayName := ⟨"bob", by decide⟩
    (OneLine line.toList ∧ trim line.toList = '/' :: rest ∧
      parse line = some (.ok (.frame frame)) ∧
      ∃ command, SlashCommand.Asks rest command ∧ Command.parse frame = .ok command) ∧
    OneLine "\thi  there ".toList ∧ trim "\thi  there ".toList ≠ [] ∧
      Carries ("/msg " ++ bob.text ++ " " ++ "\thi  there ")
        (.privateMessage bob.text (String.ofList (trim "\thi  there ".toList))) :=
  have oneLine : OneLine "\t/room  my\troom  hello \u3000 there \u3000 ".toList := by decide
  have slash : trim "\t/room  my\troom  hello \u3000 there \u3000 ".toList =
      '/' :: "room  my\troom  hello \u3000 there".toList := by decide
  have sent : parse "\t/room  my\troom  hello \u3000 there \u3000 " =
      some (.ok (.frame "room_message:my\troom hello \u3000 there")) := by
    rw [parse_of_slash slash]
    rfl
  have bodyLine : OneLine "\thi  there ".toList := by decide
  have said : trim "\thi  there ".toList ≠ [] := by decide
  ⟨⟨oneLine, slash, sent, (slash_commands_keep_their_arguments.1 _ _ oneLine slash).1 _ sent⟩,
    bodyLine, said, (slash_commands_keep_their_arguments.2.2 _ bodyLine said).2 _⟩

/-- A line without a slash is sent as it stands, and the hub reads it as a broadcast of that
line exactly when it does not begin with a command word. -/
theorem plain_lines_are_broadcast_unless_they_begin_with_a_word {line : String}
    (oneLine : OneLine line.toList) (said : trim line.toList ≠ [])
    (plain : (trim line.toList).head? ≠ some '/') :
    let text := String.ofList (trim line.toList)
    parse line = some (.ok (.frame text)) ∧
      ∀ body, Command.parse text = .ok (.broadcast body) ↔
        body = text ∧ ∀ word : CommandWord, ¬word.text.toList <+: trim line.toList := by
  intro text
  have normal : Frame.Normal text.toList := by
    rw [String.toList_ofList]
    exact ⟨oneLine.trim, startsVisibly_trim _, endsVisibly_trim _⟩
  have normalized : Frame.normalize text = text := by
    rw [Frame.normalize, Frame.normalizeText_eq_self normal, String.ofList_toList]
  refine ⟨parse_of_plain said plain, fun body => ?_⟩
  rw [Command.parse_eq_ok_iff, normalized]
  constructor
  · rintro ⟨⟨-, -, wordless⟩, blanks, -, same⟩
    obtain rfl : text = body := same
    exact ⟨rfl, by simpa [text] using wordless⟩
  · rintro ⟨rfl, wordless⟩
    have nonempty : text ≠ "" := by simpa [text, ← String.toList_eq_nil_iff] using said
    exact ⟨⟨nonempty, normal, by simpa [text] using wordless⟩, [], rfl, rfl⟩

/-- A word in another case or further inside is ordinary text. -/
theorem plain_line_with_words_inside :
    let line := "  Join_room:lobby, or join_room:lobby? \u3000"
    let text := "Join_room:lobby, or join_room:lobby?"
    OneLine line.toList ∧ trim line.toList = text.toList ∧ text.toList.head? ≠ some '/' ∧
      parse line = some (.ok (.frame text)) ∧ Command.parse text = .ok (.broadcast text) :=
  have oneLine : OneLine "  Join_room:lobby, or join_room:lobby? \u3000".toList := by decide
  have read := plain_lines_are_broadcast_unless_they_begin_with_a_word oneLine
    (by decide) (by decide)
  ⟨oneLine, rfl, by decide, read.1, (read.2 _).2 ⟨rfl, fun word => by cases word <;> decide⟩⟩

/-- A text that begins with a command word is carried out as that command, so not every
plain line is a broadcast. -/
theorem plain_line_that_joins_a_room :
    (parse "join_room:lobby" = some (.ok (.frame "join_room:lobby")) ∧
      Command.parse "join_room:lobby" = .ok (.joinRoom "lobby")) ∧
    ¬∀ line : String, OneLine line.toList → trim line.toList ≠ [] →
      (trim line.toList).head? ≠ some '/' → ∀ frame, parse line = some (.ok (.frame frame)) →
        Command.parse frame = .ok (.broadcast (String.ofList (trim line.toList))) := by
  have sent : parse "join_room:lobby" = some (.ok (.frame "join_room:lobby")) := rfl
  have joined : Command.parse "join_room:lobby" = .ok (.joinRoom "lobby") := rfl
  refine ⟨⟨sent, joined⟩, fun always => ?_⟩
  have broadcast := always "join_room:lobby" (by decide) (by decide) (by decide) _ sent
  rw [joined] at broadcast
  cases broadcast

end Input
end Parley
