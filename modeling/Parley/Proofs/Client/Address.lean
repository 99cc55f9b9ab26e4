import Parley.Admission
import Parley.Client.Address
import Parley.Proofs.Name
import Parley.Proofs.Web.Form
import Parley.Proofs.Web.Target
import Parley.Web.Query

/-!
# Coming back under the same id

The address that a client opens is written without escapes.  Nothing in a display name or a
connection id needs any, so a server reads from it the very name and id that the client
has, and asks the hub for that id.
-/

namespace Parley

/-! ## Names in forms -/

/-- Text of characters that display names may have. -/
def Name.IsSimple (text : String) : Prop := ∀ c ∈ text.toList, isDisplayCharacter c = true

instance (text : String) : Decidable (Name.IsSimple text) :=
  decidable_of_iff (text.toList.all Name.isDisplayCharacter = true) List.all_eq_true

theorem DisplayName.isSimple (name : DisplayName) : Name.IsSimple name.text := by
  have display := name.isDisplay_text
  simp only [Name.isDisplay, Bool.and_eq_true, List.all_eq_true] at display
  exact display.2

theorem ConnectionId.isSimple (id : ConnectionId) : Name.IsSimple id.text := fun c member =>
  Name.isDisplayCharacter_of_isIdCharacter (List.all_eq_true.1 id.all_isIdCharacter c member)

namespace Name.IsSimple

variable {text : String}

/-- None of these characters means anything to a form. -/
theorem isPlain (simple : IsSimple text) : Form.IsPlain text := by
  intro c member
  have display := simple c member
  refine Bool.eq_false_iff.2 fun special => ?_
  simp only [Form.isSpecial, Bool.or_eq_true, decide_eq_true_eq] at special
  rcases special with ((rfl | rfl) | rfl) | rfl <;> exact absurd display (by decide)

theorem unnumbered (simple : IsSimple text) : '#' ∉ text.toList :=
  fun member => absurd (simple '#' member) (by decide)

end Name.IsSimple

/-! ## The query of an address -/

namespace Address

/-- What a client tells of itself: its name, and the id that it had. -/
def fields (name : String) (id : Option String) : List (String × String) :=
  (nameKey, name) :: id.toList.map fun id => (idKey, id)

theorem upgrade_eq (base name : String) (id : Option String) :
    upgrade base name id = base ++ "?" ++ Form.write (fields name id) := by
  cases id <;> simp [upgrade, fields, Form.write, Form.writePair, String.append_assoc, toString]

/-- A client tells nothing of itself that needs an escape. -/
theorem isSimple_of_mem_fields {name : DisplayName} {id : Option ConnectionId}
    {field : String × String} (member : field ∈ fields name.text (id.map ConnectionId.text)) :
    Name.IsSimple field.1 ∧ Name.IsSimple field.2 := by
  rcases List.mem_cons.1 member with rfl | inId
  · exact ⟨(by decide : Name.IsSimple nameKey), name.isSimple⟩
  · obtain ⟨text, known, rfl⟩ := List.mem_map.1 inId
    obtain ⟨id, -, rfl⟩ := Option.map_eq_some_iff.1 (Option.mem_toList.1 known)
    exact ⟨(by decide : Name.IsSimple idKey), id.isSimple⟩

theorem pairs_query_upgrade {base : String} (unasked : '?' ∉ base.toList)
    (unnumbered : '#' ∉ base.toList) (name : DisplayName) (id : Option ConnectionId) :
    Form.pairs (Target.queryOf (upgrade base name.text (id.map ConnectionId.text))) =
      fields name.text (id.map ConnectionId.text) := by
  have simple (field) (member : field ∈ fields name.text (id.map ConnectionId.text)) :=
    isSimple_of_mem_fields member
  have plain : '#' ∉ (Form.write (fields name.text (id.map ConnectionId.text))).toList :=
    Form.not_mem_write (by decide) fun field member =>
      ⟨(simple field member).1.unnumbered, (simple field member).2.unnumbered⟩
  rw [upgrade_eq, Target.queryOf_append unasked unnumbered plain]
  exact Form.pairs_write fun field member =>
    ⟨(simple field member).1.isPlain, (simple field member).2.isPlain⟩

/-- The values of a query are what the client tells of itself. -/
theorem parse_of_pairs {query name : String} {id : Option String}
    (found : Form.pairs query = fields name id) :
    ConnectQuery.parse query = .ok { name := some name, clientId := id } := by
  rw [ConnectQuery.parse, found]
  cases id <;> rfl

end Address

/-! ## Admission -/

namespace Admission

/-- A name and an id pass the check of the values. -/
theorem read_of_names (name : DisplayName) (id : Option ConnectionId) :
    read (id.map ConnectionId.text) (some name.text) = .ok (id, name) := by
  have named : readName (some name.text) = .ok name := by
    rw [readName, DisplayName.ofString_text]
    rfl
  have known : readId (id.map ConnectionId.text) = .ok id := by
    cases id with
    | none => rfl
    | some id =>
        have nonempty : (some id.text).filter (fun text => !text.isEmpty) = some id.text := by
          simp [Option.filter, id.text_ne_empty]
        rw [readId, Option.map_some, nonempty]
        dsimp only
        rw [ConnectionId.ofString_text]
        rfl
  rw [read, known, named]
  rfl

/-- A peer is let in exactly when the hub gives it an id, and then with that id and the
name that it asked with. -/
theorem conclude_eq_ok_iff {name : DisplayName} {outcome : Outcome} {admission : Admission} :
    conclude name outcome = .ok admission ↔
      outcome = .ok (.identified admission.id) ∧ admission.name = name := by
  constructor
  · intro concluded
    unfold conclude at concluded
    split at concluded <;> cases concluded
    exact ⟨rfl, rfl⟩
  · rintro ⟨rfl, rfl⟩
    rfl

/-- Once the hub was asked, a peer is not turned away for its values. -/
theorem conclude_ne_invalid (name : DisplayName) (outcome : Outcome) (cause : NameError) :
    conclude name outcome ≠ .error (.invalidClientId cause) ∧
      conclude name outcome ≠ .error (.invalidDisplayName cause) := by
  unfold conclude
  split
  · exact ⟨nofun, nofun⟩
  · exact ⟨nofun, nofun⟩
  · rename_i refusal
    cases refusal <;> exact ⟨nofun, nofun⟩

end Admission

/-- An address takes a name and an id to the server as they are.  Its query holds just these,
wherever a server reads it, and the server makes one request of it, for that id or for none.
If the hub gives the peer an id, it is admitted with that and with its name, and if it is not
let in, none of its values is the reason. -/
theorem Address.upgrade_resumes_the_identity (base name : String) (id : Option ConnectionId)
    (unasked : '?' ∉ base.toList) (unnumbered : '#' ∉ base.toList)
    (valid : Name.isDisplay name.toList = true) :
    let values : ConnectQuery := { name := some name, clientId := id.map ConnectionId.text }
    let address := upgrade base name values.clientId
    Form.pairs (Target.queryOf address) =
        ("name", name) :: id.toList.map (fun id => ("client_id", id.text)) ∧
      ConnectQuery.parse (Target.queryOf address) = .ok values ∧
      ((Target.read address).path = "" ∨
        (Target.read address).query = Target.queryOf address) ∧
      ∃ display : DisplayName, display.text = name ∧
        (∀ (m : Type → Type) [Monad m] (ask : Ask m) (spare : ConnectionId),
          Admission.grant ask values.clientId values.name spare =
            Admission.conclude display <$> ask (.identify id spare)) ∧
        ∀ outcome,
          (∀ admission, Admission.conclude display outcome = .ok admission ↔
            outcome = .ok (.identified admission.id) ∧ admission.name = display) ∧
          ∀ cause, Admission.conclude display outcome ≠ .error (.invalidClientId cause) ∧
            Admission.conclude display outcome ≠ .error (.invalidDisplayName cause) := by
  obtain ⟨display, rfl⟩ := DisplayName.exists_of_isDisplay valid
  intro values address
  have found : Form.pairs (Target.queryOf address) =
      fields display.text (id.map ConnectionId.text) :=
    pairs_query_upgrade unasked unnumbered display id
  have listed : fields display.text (id.map ConnectionId.text) =
      ("name", display.text) :: id.toList.map fun id => ("client_id", id.text) := by
    cases id <;> rfl
  refine ⟨found.trans listed, parse_of_pairs found, Target.query_read address, display, rfl,
    fun m _ ask spare => ?_, fun outcome => ⟨fun admission => Admission.conclude_eq_ok_iff,
      Admission.conclude_ne_invalid display outcome⟩⟩
  rw [Admission.grant, Admission.read_of_names]

/-- Alice comes back under the id that she had, and the hub is asked for it once. -/
theorem Address.alice_comes_back :
    let id : ConnectionId := ⟨"abc-123", by decide⟩
    let spare : ConnectionId := ⟨"spare", by decide⟩
    let base := "ws://127.0.0.1:8080/ws"
    let address := upgrade base "alice" (some "abc-123")
    let ask : Ask (StateM (List Request)) := fun request asked =>
      (.ok (.identified id), asked ++ [request])
    '?' ∉ base.toList ∧ '#' ∉ base.toList ∧ Name.isDisplay "alice".toList = true ∧
      address = "ws://127.0.0.1:8080/ws?name=alice&client_id=abc-123" ∧
      Form.pairs (Target.queryOf address) = [("name", "alice"), ("client_id", "abc-123")] ∧
      (Admission.grant ask (some "abc-123") (some "alice") spare).run [] =
        (.ok { id, name := ⟨"alice", by decide⟩ }, [.identify (some id) spare]) := by
  intro id spare base address ask
  have unasked : '?' ∉ base.toList := by decide
  have unnumbered : '#' ∉ base.toList := by decide
  have valid : Name.isDisplay "alice".toList = true := by decide
  obtain ⟨found, -, -, display, named, granted, -⟩ :=
    upgrade_resumes_the_identity base "alice" (some id) unasked unnumbered valid
  have same : display = ⟨"alice", by decide⟩ := by
    cases display
    cases named
    rfl
  refine ⟨unasked, unnumbered, valid, by decide, found, ?_⟩
  rw [← same]
  exact congrArg (fun grant => StateT.run grant []) (granted (StateM (List Request)) ask spare)

end Parley
