import Parley.Proofs.Frame.Command
import Parley.Proofs.Name
import Parley.Proofs.Text.Utf8
import Parley.Simulation.Loopback

/-!
# Names on the wire

A frame with an accepted room name or display name is read as the command that names exactly
that.  Whether it arrives is another question, since room names are limited in characters
and frames in bytes.  By default a display name always fits, and a room name fits that takes
few enough bytes; with a larger one the frame breaks the socket of the peer.
-/

namespace Parley

open Text

/-! ## Sizes of names -/

/-- A display name has no more bytes than it may have characters. -/
theorem DisplayName.utf8ByteSize_le (name : DisplayName) :
    name.text.utf8ByteSize ≤ Name.displayLimit := by
  have display := name.isDisplay_text
  simp only [Name.isDisplay, Bool.and_eq_true, decide_eq_true_eq] at display
  rw [Utf8.utf8ByteSize_eq]
  exact display.1.2

/-! ## Names in commands -/

theorem Command.isRoom_of_isWord {room : String} (word : IsWord room.toList) : IsRoom room where
  left := mt String.toList_eq_nil_iff.2 word.nonempty
  right := ⟨word.oneLine, word.startsVisibly, word.endsVisibly⟩

theorem Command.isTarget_of_isWord {target : String} (word : IsWord target.toList) :
    IsTarget target :=
  ⟨mt String.toList_eq_nil_iff.2 word.nonempty, word.unspaced, word.oneLine⟩

theorem Command.isBody_of_isWord {body : String} (word : IsWord body.toList) : IsBody body :=
  ⟨mt String.toList_eq_nil_iff.2 word.nonempty, word.oneLine, word.endsVisibly⟩

/-- One visible character is a word. -/
theorem Text.isWord_singleton {c : Char} (visible : isBlank c = false) :
    IsWord (String.singleton c).toList where
  nonempty := by simp
  visible d member := by
    rw [String.toList_singleton, List.mem_singleton] at member
    rw [member]
    exact visible

/-! ## Frames on the wire -/

/-- What the socket of a server yields for a frame. -/
def Frame.arrival (settings : Settings) (frame : String) : Arrival :=
  if (Message.text frame).isAcceptable settings.maxMessageSize then .message (.text frame)
  else .failure

/-- The sessions of a loopback hear what their sockets yield. -/
theorem Loopback.deliver_text (loop : Loopback) (id : OutboxId) (frame : String) :
    loop.deliver id (.text frame) = loop.withServer fun server =>
      server.arrive id (Frame.arrival loop.server.settings frame) := by
  unfold Loopback.deliver Frame.arrival
  split <;> rfl

/-- A frame is read as a command, and it arrives when it fits; otherwise it breaks the
socket. -/
structure Frame.Carries (frame : String) (command : Command) (settings : Settings)
    (fits : Prop) : Prop where
  read : Command.parse frame = .ok command
  arrives : arrival settings frame = .message (.text frame) ↔ fits
  breaks : arrival settings frame = .failure ↔ ¬fits

theorem Command.Canonical.carries (command : Command) {settings : Settings} {fits : Prop}
    (canonical : command.Canonical)
    (small : command.encode.utf8ByteSize ≤ settings.maxMessageSize ↔ fits) :
    Frame.Carries command.encode command settings fits where
  read := canonical.parse_encode
  arrives := by
    rw [← small]
    simp [Frame.arrival, Message.isAcceptable]
  breaks := by
    rw [← small]
    simp [Frame.arrival, Message.isAcceptable]

/-- Frames with accepted names are read as the commands that name exactly these.  By default
the frames to a display name always arrive, and the frames with a room name arrive when the
name takes few enough bytes. -/
theorem Frame.names_are_carried (room : RoomName) (name : DisplayName) (said : Char)
    (visible : isBlank said = false) (ascii : said.toNat < 128) :
    Carries ("join_room:" ++ room.text) (.joinRoom room.text) {}
        (room.text.utf8ByteSize ≤ 502) ∧
      Carries ("leave_room:" ++ room.text) (.leaveRoom room.text) {}
        (room.text.utf8ByteSize ≤ 501) ∧
      Carries ("room_message:" ++ room.text ++ " " ++ String.singleton said)
        (.roomMessage room.text (String.singleton said)) {} (room.text.utf8ByteSize ≤ 497) ∧
      Carries ("private_message:" ++ name.text ++ " " ++ String.singleton said)
        (.privateMessage name.text (String.singleton said)) {} True := by
  have body : Command.IsBody (String.singleton said) :=
    Command.isBody_of_isWord (isWord_singleton visible)
  have isRoom := Command.isRoom_of_isWord room.isWord
  have isTarget := Command.isTarget_of_isWord room.isWord
  have bodySize : (String.singleton said).utf8ByteSize = 1 := by
    rw [Utf8.utf8ByteSize_eq, String.toList_singleton, Utf8.byteCount, Utf8.byteCount,
      Nat.add_zero, Char.utf8Size_eq_one_iff, UInt32.le_iff_toNat_le]
    exact Nat.le_of_lt_succ ascii
  have nameSize := name.utf8ByteSize_le
  have words : "join_room:".utf8ByteSize = 10 ∧ "leave_room:".utf8ByteSize = 11 ∧
      "room_message:".utf8ByteSize = 13 ∧ "private_message:".utf8ByteSize = 16 ∧
      " ".utf8ByteSize = 1 := by decide
  refine ⟨Command.Canonical.carries (.joinRoom room.text) isRoom ?_,
    Command.Canonical.carries (.leaveRoom room.text) isRoom ?_,
    Command.Canonical.carries (.roomMessage room.text _) ⟨isTarget, body⟩ ?_,
    Command.Canonical.carries (.privateMessage name.text _)
      ⟨Command.isTarget_of_isWord name.isWord, body⟩ ?_⟩
  all_goals
    simp only [Command.encode, CommandWord.text, String.utf8ByteSize_append, bodySize, words,
      Name.displayLimit, iff_true] at nameSize ⊢
    omega

/-- A word to the lobby arrives. -/
theorem Frame.word_to_the_lobby_arrives :
    isBlank 'x' = false ∧ 'x'.toNat < 128 ∧
      Command.parse "room_message:lobby x" = .ok (.roomMessage "lobby" "x") ∧
      arrival {} "room_message:lobby x" = .message (.text "room_message:lobby x") := by
  obtain ⟨-, -, carried, -⟩ :=
    names_are_carried ⟨"lobby", by decide⟩ .default 'x' (by decide) (by decide)
  exact ⟨by decide, by decide, carried.read, carried.arrives.2 (by decide)⟩

/-- A visible character, however often it is repeated, is the name of a room. -/
theorem Name.roomFault_replicate {c : Char} (visible : isBlank c = false) {count : Nat}
    (nonzero : count ≠ 0) (few : count ≤ roomLimit) :
    roomFault (List.replicate count c) = none := by
  simp [roomFault, visible, nonzero, few]

/-- The name of a room that takes as many bytes as any. -/
def RoomName.widest : RoomName where
  text := String.ofList (List.replicate Name.roomLimit (Char.ofNat 0x1F600))
  checked := by
    rw [String.toList_ofList]
    exact Name.roomFault_replicate (by decide) (by decide) (Nat.le_refl _)

theorem RoomName.utf8ByteSize_widest : widest.text.utf8ByteSize = 512 := by
  have wide : (Char.ofNat 0x1F600).utf8Size = 4 := by decide
  have text : widest.text = String.ofList (List.replicate Name.roomLimit (Char.ofNat 0x1F600)) :=
    rfl
  rw [Utf8.utf8ByteSize_eq, text, String.toList_ofList, Utf8.byteCount_replicate, wide,
    Name.roomLimit]

/-- The widest name is accepted, but joining its room breaks the socket. -/
theorem Frame.widest_name_breaks_the_socket :
    ("join_room:" ++ RoomName.widest.text).utf8ByteSize = 522 ∧
      arrival {} ("join_room:" ++ RoomName.widest.text) = .failure ∧
      ¬∀ room : RoomName, ("join_room:" ++ room.text).utf8ByteSize ≤
        ({} : Settings).maxMessageSize := by
  have size : ("join_room:" ++ RoomName.widest.text).utf8ByteSize = 522 := by
    rw [String.utf8ByteSize_append, RoomName.utf8ByteSize_widest]
    decide
  refine ⟨size, ?_, fun fits => ?_⟩
  · simp [arrival, Message.isAcceptable, size]
  · have small := fits RoomName.widest
    rw [size] at small
    exact absurd small (by decide)

end Parley
