import HomeControl.Client.Prompt
import HomeControl.Proofs.Home.Reached
import HomeControl.Proofs.Protocol.Line
import HomeControl.Proofs.Protocol.Message

/-!
# Requests of the prompt

An answer that a question takes has been typed and read (`exists_line_of_ask`), and each question reads
only what fits the answers before it. So the request of a dialog names a device of the home and an
operation of its kind with as many arguments as it takes (`request_collect`), and on its way over the
wire the home finds nothing to refuse in it but the state of the device (`requests_fit_home`).
-/

namespace HomeControl.Prompt

section

variable {α : Type} {menu : String} {parse : String → Except String α} {lines : List String} {a : α}

/-- An answer has been read from one of the lines. -/
theorem exists_line_of_ask (h : (ask menu parse lines).answer = .value a) :
    ∃ line ∈ lines, parse (Text.trim line) = .ok a := by
  induction lines with
  | nil => cases h
  | cons line rest ih =>
    rw [ask] at h
    simp only at h
    split at h
    · cases h
    split at h
    · rename_i b hb
      obtain rfl := Answer.value.inj h
      exact ⟨line, List.mem_cons_self, hb⟩
    · obtain ⟨line', hmem, hparse⟩ := ih h
      exact ⟨line', List.mem_cons_of_mem _ hmem, hparse⟩

/-- A dialog that asks for more than the end of the session has gone on with an answer. -/
theorem request_andThen {q : Asked α} {next : α → List String → Dialog} {r : Request}
    (h : (q.andThen next).request = some r) (hr : r ≠ .terminate) :
    ∃ a, q.answer = .value a ∧ (next a q.rest).request = some r := by
  unfold Asked.andThen at h
  cases ha : q.answer with
  | value a =>
    rw [ha] at h
    exact ⟨a, rfl, h⟩
  | terminate =>
    rw [ha] at h
    exact absurd (Option.some.inj h).symm hr
  | dry =>
    rw [ha] at h
    cases h

end

/-! ## What the questions read -/

variable {h : Home} {k : Kind} {op : Operation} {index opcode : UInt8} {params : Bytes}
  {input : String} {lines : List String}

theorem lt_of_parseIndex {count : Nat} (hi : parseIndex count input = .ok index) :
    index.toNat < count := by
  obtain ⟨index', -, hi⟩ := bind_eq_ok.1 hi
  split at hi
  · cases hi
  · rename_i hlt
    obtain rfl := Except.ok.inj hi
    exact Nat.not_le.1 hlt

theorem operation?_of_parseOperation (ho : parseOperation k input = .ok op) :
    k.operation? op.opcode = some op := by
  obtain ⟨opcode, -, ho⟩ := bind_eq_ok.1 ho
  split at ho
  · cases ho
  · rename_i op' hop
    obtain rfl := Except.ok.inj ho
    rwa [Kind.opcode_of_operation? hop]

theorem length_of_mapM {parse : String → Except String UInt8} {parts : List String}
    (hp : parts.mapM parse = .ok params) : params.length = parts.length := by
  induction parts generalizing params with
  | nil =>
    obtain rfl := Except.ok.inj hp
    rfl
  | cons part parts ih =>
    rw [List.mapM_cons] at hp
    obtain ⟨b, -, hp⟩ := bind_eq_ok.1 hp
    obtain ⟨rest, hrest, hp⟩ := bind_eq_ok.1 hp
    obtain rfl := Except.ok.inj hp
    rw [List.length_cons, ih hrest, List.length_cons]

theorem length_of_parseArguments {expected : Nat} (hp : parseArguments expected input = .ok params) :
    params.length = expected := by
  unfold parseArguments at hp
  simp only at hp
  split at hp
  · cases hp
  · rename_i hlength
    rw [length_of_mapM hp]
    exact Decidable.not_not.1 hlength

/-! ## Whole dialogs -/

/-- A request with arguments has as many as its operation wants. -/
theorem request_collectArguments {done : Bytes → Request} {r : Request}
    (hc : (collectArguments op lines done).request = some r) (hr : r ≠ .terminate) :
    ∃ params, params.length = op.arguments.length ∧ r = done params := by
  unfold collectArguments at hc
  split at hc
  · rename_i hnone
    rw [List.isEmpty_iff] at hnone
    exact ⟨[], by rw [hnone]; rfl, (Option.some.inj hc).symm⟩
  · obtain ⟨params, hanswer, hdone⟩ := request_andThen hc hr
    obtain ⟨line, -, hparams⟩ := exists_line_of_ask hanswer
    exact ⟨params, length_of_parseArguments hparams, (Option.some.inj hdone).symm⟩

/-- A request names a device of the home, an operation of its kind, and as many arguments as that wants.
-/
theorem request_collect (hc : (collect h lines).request = some (.act k index opcode params)) :
    ∃ d op, h.device? k index = some d ∧ k.operation? opcode = some op ∧
      params.length = op.arguments.length := by
  obtain ⟨k', -, hc⟩ := request_andThen hc (by simp)
  obtain ⟨index', hindex, hc⟩ := request_andThen hc (by simp)
  obtain ⟨op, hop, hc⟩ := request_andThen hc (by simp)
  obtain ⟨params', hparams, hrequest⟩ := request_collectArguments hc (by simp)
  obtain ⟨rfl, rfl, rfl, rfl⟩ := Request.act.inj hrequest
  obtain ⟨indexLine, -, hindex⟩ := exists_line_of_ask hindex
  obtain ⟨opcodeLine, -, hop⟩ := exists_line_of_ask hop
  have hd : h.device? k index = some _ := List.getElem?_eq_getElem (lt_of_parseIndex hindex)
  exact ⟨_, op, hd, operation?_of_parseOperation hop, hparams⟩

/-- **The prompt asks for what there is.** Take any home that can be reached and any lines. If the dialog
comes to an action, the device that it names exists, the opcode is that of an operation of its kind, and
there are as many arguments as the operation takes. Whatever sequence number it is sent under, its line
can be written and is read as that action, and the home accepts it or refuses it for the state that the
device is in. -/
theorem requests_fit_home (hr : h.Reached)
    (hc : (collect h lines).request = some (.act k index opcode params)) :
    (∃ d op, h.device? k index = some d ∧ op ∈ k.operations ∧ op.opcode = opcode ∧
      params.length = op.arguments.length) ∧
    ∀ sequence, ∃ a line m, (Request.act k index opcode params).toAction? sequence = some a ∧
      Line.encode (.action a) = .ok line ∧ Line.decode line = .ok m ∧ m.parseAction = .ok a ∧
        ((∃ h', h.apply a = .ok h') ∨ ∃ e, h.apply a = .error e ∧ e.OfState) := by
  obtain ⟨d, op, hd, ho, hparams⟩ := request_collect hc
  refine ⟨⟨d, op, hd, Kind.mem_operations ho, Kind.opcode_of_operation? ho, hparams⟩, ?_⟩
  intro sequence
  let a : Action := { sequence, kind := k.code, index, opcode, params }
  have hline : Line.encode (.action a) = .ok (Line.ofMessage (.action a)) := Line.encode_of_wire rfl
  refine ⟨a, _, _, rfl, hline, Line.decode_encode hline, Message.parseAction_action a, ?_⟩
  have hk : Kind.ofCode? a.kind = some k := by cases k <;> rfl
  -- The dialog went by the group; the device goes by its own kind, which is the same in a valid home.
  obtain ⟨rfl, -⟩ := hr.valid.legal k d (List.mem_of_getElem? hd)
  rw [Home.apply_of_device? hk rfl hd]
  cases hda : d.apply a.opcode a.params with
  | ok d' => exact Or.inl ⟨_, rfl⟩
  | error e => exact Or.inr ⟨e, rfl, Device.ofState_of_apply ho hparams hda⟩

/-- A lamp that is off is asked for by its number, with zeros and a sign, after two answers that make no
sense; it is to be dimmed, which takes one argument and is refused. -/
theorem requests_fit_home_lamp :
    let study := Home.empty.changes [.add .light "desk lamp" 0 [0]]
    let lines := ["lamp", "0", " +00 ", "2", "256", "040"]
    (collect study lines).request = some (.act .light 0 2 [40]) ∧
      ∃ a e, (Request.act .light 0 2 [40]).toAction? 255 = some a ∧ study.apply a = .error e ∧
        e.OfState := by
  intro study lines
  have hc : (collect study lines).request = some (.act .light 0 2 [40]) := rfl
  obtain ⟨-, hsent⟩ := requests_fit_home ⟨_, rfl⟩ hc
  obtain ⟨a, line, m, ha, -, -, -, happly⟩ := hsent 255
  refine ⟨hc, a, ?_⟩
  obtain rfl := Option.some.inj ha
  rcases happly with ⟨h', hok⟩ | ⟨e, he, hstate⟩
  · cases hok
  · exact ⟨e, rfl, he, hstate⟩

end HomeControl.Prompt
