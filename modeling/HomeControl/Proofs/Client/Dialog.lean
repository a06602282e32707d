import HomeControl.Client.Prompt
import HomeControl.Proofs.Home.Reached
import HomeControl.Proofs.Text.Decimal

/-!
# Dialogs line by line

A dialog is a walk from question to question: a line is put to the question that is open, which rejects
it and stays open, or takes it and opens the next one or ends the dialog with a request (`Stage.step`).
The prompt walks this way (`outcome_collect`). So it reads the lines in order and no further than the
one that ends the dialog, a rejected line might as well not have been typed, and every request that the
home allows has lines that lead to it (`dialogs_exact`).
-/

namespace HomeControl.Prompt

/-! ## Questions -/

/-- What is asked, after the answers there are. -/
inductive Question where
  | kind
  | device (k : Kind)
  | operation (k : Kind) (index : UInt8)
  | arguments (k : Kind) (index : UInt8) (op : Operation)

/-- How far a dialog has come. -/
inductive Stage where
  | asking (q : Question)
  | ended (r : Request)

/-- Where an answer that is taken leads to. -/
def Question.answered (h : Home) (input : String) : Question → Except String Stage
  | .kind => (parseKind h input).map fun k => .asking (.device k)
  | .device k => (parseIndex (h.group k).length input).map fun index => .asking (.operation k index)
  | .operation k index =>
    (parseOperation k input).map fun op =>
      if op.arguments.isEmpty then .ended (.act k index op.opcode [])
      else .asking (.arguments k index op)
  | .arguments k index op =>
    (parseArguments op.arguments.length input).map fun params => .ended (.act k index op.opcode params)

/-- What comes of a line that is put to a question; an error is why it is rejected. -/
@[irreducible] def Question.put (h : Home) (q : Question) (line : String) : Except String Stage :=
  let input := Text.trim line
  if isTerminate input then .ok (.ended .terminate) else q.answered h input

-- This alone opens `put`: to compare two stages is not to trim and read a line.
theorem put_eq (h : Home) (q : Question) (line : String) :
    q.put h line = if isTerminate (Text.trim line) then .ok (.ended .terminate)
      else q.answered h (Text.trim line) := by
  unfold Question.put
  rfl

namespace Stage

variable {h : Home} {s : Stage} {q : Question} {r : Request} {line : String}
  {lines before after rest : List String}

/-- A line at a stage. A question that rejects it stays open, and after the end no line counts. -/
def step (h : Home) : Stage → String → Stage
  | ended r, _ => ended r
  | asking q, line =>
    match q.put h line with
    | .ok s => s
    | .error _ => asking q

/-- Goes on until the dialog has ended; the lines behind that one are left. -/
def run (h : Home) : Stage → List String → Option Request × List String
  | ended r, lines => (some r, lines)
  | asking _, [] => (none, [])
  | asking q, line :: rest =>
    match q.put h line with
    | .ok s => run h s rest
    | .error _ => run h (asking q) rest

theorem run_ended (h : Home) (r : Request) (lines : List String) :
    (ended r).run h lines = (some r, lines) := by
  cases lines <;> rfl

theorem step_taken {s : Stage} (hs : q.put h line = .ok s) : (asking q).step h line = s := by
  simp only [step, hs]

theorem step_rejected {reason : String} (hr : q.put h line = .error reason) :
    (asking q).step h line = asking q := by
  simp only [step, hr]

/-- Only the line that is taken ends a dialog. -/
theorem put_of_step (hs : (asking q).step h line = ended r) : q.put h line = .ok (ended r) := by
  cases hput : q.put h line with
  | ok s => rw [← hs, step_taken hput]
  | error reason =>
    rw [step_rejected hput] at hs
    cases hs

theorem run_taken {s : Stage} (hs : q.put h line = .ok s) :
    (asking q).run h (line :: rest) = s.run h rest := by
  simp only [run, hs]

theorem run_rejected {reason : String} (hr : q.put h line = .error reason) :
    (asking q).run h (line :: rest) = (asking q).run h rest := by
  simp only [run, hr]

/-- A dialog goes on line by line. -/
theorem run_cons (h : Home) (q : Question) (line : String) (rest : List String) :
    (asking q).run h (line :: rest) = ((asking q).step h line).run h rest := by
  cases hput : q.put h line with
  | ok s => rw [run_taken hput, step_taken hput]
  | error reason => rw [run_rejected hput, step_rejected hput]

theorem foldl_ended (h : Home) (r : Request) (lines : List String) :
    lines.foldl (step h) (ended r) = ended r := by
  induction lines with
  | nil => rfl
  | cons line lines ih => exact ih

/-- Lines that have left a question open may be dealt with first. -/
theorem run_append (hq : before.foldl (step h) s = asking q) :
    s.run h (before ++ rest) = (asking q).run h rest := by
  induction before generalizing s with
  | nil =>
    obtain rfl : s = asking q := hq
    rfl
  | cons line before ih =>
    cases s with
    | ended r =>
      rw [foldl_ended] at hq
      cases hq
    | asking q' =>
      rw [List.foldl_cons] at hq
      rw [List.cons_append, run_cons, ih hq]

/-- A dialog that has come to nothing has read every line. -/
theorem run_eq_none (hn : ((asking q).run h lines).1 = none) : ((asking q).run h lines).2 = [] := by
  induction lines generalizing q with
  | nil => rfl
  | cons line lines ih =>
    rw [run_cons] at hn ⊢
    cases hnext : (asking q).step h line with
    | asking q' =>
      rw [hnext] at hn
      exact ih hn
    | ended r =>
      rw [hnext, run_ended] at hn
      cases hn

/-- A dialog ends at the line with which the question that is open then leads to the request. -/
theorem run_eq_some (hr : ((asking q).run h lines).1 = some r) :
    ∃ before last q', lines = before ++ last :: ((asking q).run h lines).2 ∧
      before.foldl (step h) (asking q) = asking q' ∧ q'.put h last = .ok (ended r) := by
  induction lines generalizing q with
  | nil => cases hr
  | cons line lines ih =>
    rw [run_cons] at hr ⊢
    cases hnext : (asking q).step h line with
    | asking q₁ =>
      rw [hnext] at hr
      obtain ⟨before, last, q', hlines, hbefore, hlast⟩ := ih hr
      refine ⟨line :: before, last, q', congrArg (line :: ·) hlines, ?_, hlast⟩
      rw [List.foldl_cons, hnext, hbefore]
    | ended r' =>
      rw [hnext, run_ended] at hr
      obtain rfl := Option.some.inj hr
      exact ⟨[], line, q, by rw [run_ended]; rfl, rfl, put_of_step hnext⟩

end Stage

/-! ## The prompt walks from stage to stage -/

/-- What a dialog comes to, apart from what it prints: its request, and the lines it has not read. -/
def Dialog.outcome (d : Dialog) : Option Request × List String :=
  (d.request, d.rest)

section

variable {h : Home} {q : Question}

@[simp] theorem outcome_after (d : Dialog) (printed : List String) :
    (d.after printed).outcome = d.outcome := rfl

/-- What has been printed has no part in what a dialog comes to. -/
theorem outcome_congr {α : Type} {a b : Asked α} {next : α → List String → Dialog}
    (ha : a.answer = b.answer) (hr : a.rest = b.rest) :
    (a.andThen next).outcome = (b.andThen next).outcome := by
  rw [Asked.andThen, Asked.andThen, ha, hr]
  cases b.answer <;> rfl

/-- A question is asked until a line is taken, and then the dialog goes on where that line leads. -/
theorem outcome_andThen {α : Type} {menu : String} {parse : String → Except String α} {go : α → Stage}
    {next : α → List String → Dialog}
    (hq : ∀ input, q.answered h input = (parse input).map go)
    (hnext : ∀ a rest, (next a rest).outcome = (go a).run h rest) (lines : List String) :
    ((ask menu parse lines).andThen next).outcome = (Stage.asking q).run h lines := by
  induction lines with
  | nil => rfl
  | cons line lines ih =>
    rw [ask]
    by_cases ht : isTerminate (Text.trim line) = true
    · have hput : q.put h line = .ok (.ended .terminate) := by rw [put_eq, if_pos ht]
      rw [Stage.run_taken hput, Stage.run_ended]
      simp only [ht, if_true]
      rfl
    · have hput : q.put h line = (parse (Text.trim line)).map go := by rw [put_eq, if_neg ht, hq]
      simp only [ht, Bool.false_eq_true, if_false]
      cases hparse : parse (Text.trim line) with
      | ok a =>
        rw [hparse] at hput
        rw [Stage.run_taken hput, ← hnext]
        rfl
      | error reason =>
        rw [hparse] at hput
        rw [Stage.run_rejected hput, ← ih]
        exact outcome_congr rfl rfl

/-- The prompt comes to what the walk from the first question comes to. -/
theorem outcome_collect (h : Home) (lines : List String) :
    (collect h lines).outcome = (Stage.asking .kind).run h lines := by
  rw [collect, outcome_after]
  refine outcome_andThen (fun _ => rfl) ?_ lines
  intro k rest
  refine outcome_andThen (fun _ => rfl) ?_ rest
  intro index rest
  rw [outcome_after]
  refine outcome_andThen (fun _ => rfl) ?_ rest
  intro op rest
  rw [collectArguments]
  by_cases hnone : op.arguments.isEmpty = true
  · rw [if_pos hnone, if_pos hnone, Stage.run_ended]
    rfl
  · rw [if_neg hnone, if_neg hnone]
    refine outcome_andThen (fun _ => rfl) ?_ rest
    intro params rest
    rw [Stage.run_ended]
    rfl

end

/-! ## Lines that lead to a request -/

section

variable {h : Home} {k : Kind} {op : Operation} {index : UInt8} {params : Bytes} {q : Question}
  {line : String}

/-- A line of digits and commas. -/
def Plain (line : String) : Prop :=
  ∀ c ∈ line.toList, c.isDigit = true ∨ c = ','

theorem plain_ofByte (b : UInt8) : Plain (Decimal.ofByte b) :=
  fun _ hc => .inl (Decimal.isDigit_of_mem_ofByte hc)

/-- There is nothing to trim from digits and commas. -/
theorem Plain.trim (hl : Plain line) : Text.trim line = line := by
  refine Text.trim_eq_self fun c hc => ?_
  rcases hl c hc with hdigit | rfl
  · exact Text.isBlank_of_isDigit hdigit
  · decide

/-- Nothing is trimmed from such a line, and it does not end the session. -/
theorem Plain.put (hl : Plain line) : q.put h line = q.answered h line := by
  have hletter : ∀ c, c.isDigit = false → c ≠ ',' → line ≠ String.singleton c := by
    rintro c hdigit hcomma rfl
    rcases hl c (by simp) with hc | hc
    · rw [hdigit] at hc
      cases hc
    · exact hcomma hc
  have hterminate : isTerminate line = false := by
    have hlower := hletter 't' (by decide) (by decide)
    have hupper := hletter 'T' (by decide) (by decide)
    rw [isTerminate, Bool.or_eq_false_iff]
    exact ⟨beq_eq_false_iff_ne.2 hlower, beq_eq_false_iff_ne.2 hupper⟩
  rw [put_eq, hl.trim, hterminate]
  rfl

theorem parseNumber_ofByte (b : UInt8) : parseNumber (Decimal.ofByte b) = .ok b := by
  rw [parseNumber, Decimal.byte?_ofByte]

theorem parseArgument_ofByte (b : UInt8) : parseArgument (Decimal.ofByte b) = .ok b := by
  rw [parseArgument, Decimal.byte?_ofByte]

theorem parseKind_ofByte (hne : h.group k ≠ []) : parseKind h (Decimal.ofByte k.code) = .ok k := by
  have hk : Kind.ofCode? k.code = some k := by cases k <;> rfl
  simp only [parseKind, parseNumber_ofByte, bind, Except.bind, hk]
  exact if_neg (by simp [hne])

theorem parseIndex_ofByte {count : Nat} (hi : index.toNat < count) :
    parseIndex count (Decimal.ofByte index) = .ok index := by
  rw [parseIndex, parseNumber_ofByte]
  exact if_neg (Nat.not_le.2 hi)

theorem parseOperation_ofByte (ho : op ∈ k.operations) :
    parseOperation k (Decimal.ofByte op.opcode) = .ok op := by
  simp only [parseOperation, parseNumber_ofByte, bind, Except.bind, Kind.operation?_of_mem ho]
  rfl

/-- Arguments as they are written, with commas in between. -/
def listed (params : Bytes) : String :=
  (String.singleton ',').intercalate (params.map Decimal.ofByte)

theorem plain_listed (params : Bytes) : Plain (listed params) := by
  intro c hc
  rcases Text.mem_intercalate hc with rfl | ⟨s, hs, hcs⟩
  · exact .inr rfl
  · obtain ⟨b, -, rfl⟩ := List.mem_map.1 hs
    exact plain_ofByte b c hcs

theorem mapM_parseArgument (params : Bytes) :
    (params.map Decimal.ofByte).mapM parseArgument = .ok params := by
  induction params with
  | nil => rfl
  | cons b params ih =>
    rw [List.map_cons, List.mapM_cons, parseArgument_ofByte, ih]
    rfl

/-- Arguments are read as they are written. -/
theorem parseArguments_listed (hne : params ≠ []) :
    parseArguments params.length (listed params) = .ok params := by
  have hcut : Text.split ',' (listed params) = params.map Decimal.ofByte := by
    refine Text.split_intercalate (by simpa using hne) ?_
    intro s hs hcomma
    obtain ⟨b, -, rfl⟩ := List.mem_map.1 hs
    cases Decimal.isDigit_of_mem_ofByte hcomma
  have htrim : (params.map Decimal.ofByte).map Text.trim = params.map Decimal.ofByte := by
    rw [List.map_map]
    exact List.map_congr_left fun b _ => (plain_ofByte b).trim
  rw [parseArguments]
  simp only [hcut, htrim, List.length_map, ne_eq, not_true_eq_false, if_false]
  exact mapM_parseArgument params

/-- What a user types to ask for an operation. -/
def typed (k : Kind) (index : UInt8) (op : Operation) (params : Bytes) : List String :=
  Decimal.ofByte k.code :: Decimal.ofByte index :: Decimal.ofByte op.opcode ::
    if op.arguments.isEmpty then [] else [listed params]

/-- What a user types for an operation that the home allows is taken line by line, and ends the dialog
with the request for it. -/
theorem run_typed (hi : index.toNat < (h.group k).length) (ho : op ∈ k.operations)
    (hparams : params.length = op.arguments.length) (rest : List String) :
    (Stage.asking .kind).run h (typed k index op params ++ rest) =
      (some (.act k index op.opcode params), rest) := by
  have hne : h.group k ≠ [] := by
    intro hnil
    rw [hnil] at hi
    exact Nat.not_lt_zero _ hi
  have hkind : Question.put h .kind (Decimal.ofByte k.code) = .ok (.asking (.device k)) := by
    rw [(plain_ofByte _).put, Question.answered, parseKind_ofByte hne]
    rfl
  have hdevice : Question.put h (.device k) (Decimal.ofByte index) =
      .ok (.asking (.operation k index)) := by
    rw [(plain_ofByte _).put, Question.answered, parseIndex_ofByte hi]
    rfl
  have hoperation : Question.put h (.operation k index) (Decimal.ofByte op.opcode) =
      .ok (if op.arguments.isEmpty then .ended (.act k index op.opcode [])
        else .asking (.arguments k index op)) := by
    rw [(plain_ofByte _).put, Question.answered, parseOperation_ofByte ho]
    rfl
  rw [typed, List.cons_append, List.cons_append, List.cons_append, Stage.run_taken hkind,
    Stage.run_taken hdevice, Stage.run_taken hoperation]
  by_cases hnone : op.arguments.isEmpty = true
  · have hnil : params = [] := by
      rw [List.isEmpty_iff.1 hnone] at hparams
      exact List.eq_nil_of_length_eq_zero hparams
    rw [if_pos hnone, if_pos hnone, Stage.run_ended, hnil]
    rfl
  · have hsome : params ≠ [] := by
      rintro rfl
      exact hnone (List.isEmpty_iff.2 (List.eq_nil_of_length_eq_zero hparams.symm))
    have harguments : Question.put h (.arguments k index op) (listed params) =
        .ok (.ended (.act k index op.opcode params)) := by
      rw [(plain_listed params).put, Question.answered, ← hparams, parseArguments_listed hsome]
      rfl
    rw [if_neg hnone, if_neg hnone, List.singleton_append, Stage.run_taken harguments, Stage.run_ended]

end

/-! ## Whole dialogs -/

section

variable {h : Home} {lines : List String} {r : Request}

theorem request_eq (h : Home) (lines : List String) :
    (collect h lines).request = ((Stage.asking .kind).run h lines).1 :=
  congrArg Prod.fst (outcome_collect h lines)

theorem rest_eq (h : Home) (lines : List String) :
    (collect h lines).rest = ((Stage.asking .kind).run h lines).2 :=
  congrArg Prod.snd (outcome_collect h lines)

/-- What a question reads asks for an action or opens another question. -/
theorem Question.answered_ne_terminate {q : Question} {input : String} :
    q.answered h input ≠ .ok (.ended .terminate) := by
  cases q with
  | kind =>
    rw [answered]
    cases parseKind h input <;> nofun
  | device k =>
    rw [answered]
    cases parseIndex (h.group k).length input <;> nofun
  | operation k index =>
    rw [answered]
    cases parseOperation k input with
    | error reason => nofun
    | ok op =>
      cases hnone : op.arguments.isEmpty <;> simp [Except.map, hnone]
  | arguments k index op =>
    rw [answered]
    cases parseArguments op.arguments.length input <;> nofun

/-- The word for the end of the session is the only line that asks for it. -/
theorem Question.terminate_iff {q : Question} {line : String} (hq : q.put h line = .ok (.ended r)) :
    r = .terminate ↔ isTerminate (Text.trim line) = true := by
  rw [put_eq] at hq
  by_cases ht : isTerminate (Text.trim line) = true
  · rw [if_pos ht] at hq
    cases hq
    exact iff_of_true rfl ht
  · rw [if_neg ht] at hq
    refine iff_of_false ?_ ht
    rintro rfl
    exact answered_ne_terminate hq

/-- Dialogs in turn on one queue, each with the home that there is then: the lines that each of them
reads, and those that are left. -/
def inTurn : List Home → List String → List (List String) × List String
  | [], lines => ([], lines)
  | h :: hs, lines =>
    let rest := (collect h lines).rest
    let (reads, left) := inTurn hs rest
    (lines.take (lines.length - rest.length) :: reads, left)

/-- A dialog reads from the front, and at least one line if there is any. -/
theorem rest_suffix (h : Home) (lines : List String) : ∃ read, lines = read ++ (collect h lines).rest ∧
    (lines ≠ [] → read ≠ []) := by
  rw [rest_eq]
  cases hr : ((Stage.asking .kind).run h lines).1 with
  | none =>
    rw [Stage.run_eq_none hr]
    exact ⟨lines, (List.append_nil lines).symm, id⟩
  | some r =>
    obtain ⟨before, last, q, hlines, -, -⟩ := Stage.run_eq_some hr
    exact ⟨before ++ [last], by simpa using hlines, fun _ => by simp⟩

/-- Dialogs in turn see every line once and in order. -/
theorem inTurn_flatten (hs : List Home) (lines : List String) :
    (inTurn hs lines).1.flatten ++ (inTurn hs lines).2 = lines := by
  induction hs generalizing lines with
  | nil => rfl
  | cons h hs ih =>
    obtain ⟨read, hlines, -⟩ := rest_suffix h lines
    have hread : ∀ rest, lines = read ++ rest → lines.take (lines.length - rest.length) = read := by
      rintro rest rfl
      simp
    rw [inTurn]
    simp only [List.flatten_cons, List.append_assoc, ih, hread _ hlines]
    exact hlines.symm

/-- As many dialogs as there are lines leave none over. -/
theorem inTurn_left (hs : List Home) (lines : List String) (hlen : lines.length ≤ hs.length) :
    (inTurn hs lines).2 = [] := by
  induction hs generalizing lines with
  | nil => exact List.eq_nil_of_length_eq_zero (Nat.le_zero.1 hlen)
  | cons h hs ih =>
    rw [inTurn]
    refine ih _ ?_
    obtain ⟨read, hlines, hread⟩ := rest_suffix h lines
    have hsum := congrArg List.length hlines
    rw [List.length_append] at hsum
    rw [List.length_cons] at hlen
    -- a dialog reads a line at least, as long as there is one
    by_cases hnil : lines = []
    · have hzero : lines.length = 0 := List.length_eq_zero_iff.2 hnil
      omega
    · have hpos := List.length_pos_iff.2 (hread hnil)
      omega

end

/-- **Dialogs lose no line and leave no request out.** A dialog reads a beginning of the queue. It comes
to no request only when it has read all of it; otherwise the last line that it has read is the one with
which the question open at that time led to the request, and it is the word for the end of the session
exactly if that is the request. A line that its question rejected may be taken out of the queue: the
request and the lines left stay the same. Dialogs in turn on one queue read it piece by piece, each line
once, and as many dialogs as there are lines read all of it. And in any home that can be reached there
are lines that ask for any operation on any of its devices with any arguments. -/
theorem dialogs_exact (h : Home) (lines : List String) :
    (∃ read, lines = read ++ (collect h lines).rest ∧
      ((collect h lines).request = none → (collect h lines).rest = []) ∧
      ∀ r, (collect h lines).request = some r → ∃ before last q, read = before ++ [last] ∧
        before.foldl (Stage.step h) (.asking .kind) = .asking q ∧ q.put h last = .ok (.ended r) ∧
          (r = .terminate ↔ isTerminate (Text.trim last) = true)) ∧
    (∀ before line after q reason, lines = before ++ line :: after →
      before.foldl (Stage.step h) (.asking .kind) = .asking q → q.put h line = .error reason →
        (collect h (before ++ after)).request = (collect h lines).request ∧
          (collect h (before ++ after)).rest = (collect h lines).rest) ∧
    (∀ hs, (inTurn hs lines).1.flatten ++ (inTurn hs lines).2 = lines ∧
      (lines.length ≤ hs.length → (inTurn hs lines).2 = [])) ∧
    (h.Reached → ∀ (k : Kind) (n : Nat) (d : Device), (h.group k)[n]? = some d →
      ∀ op ∈ d.kind.operations, ∀ params : Bytes, params.length = op.arguments.length →
        ∃ (index : UInt8) (wanted : List String), index.toNat = n ∧ ∀ more,
          (collect h (wanted ++ more)).request = some (.act d.kind index op.opcode params) ∧
            (collect h (wanted ++ more)).rest = more) := by
  refine ⟨?_, ?_, fun hs => ⟨inTurn_flatten hs lines, inTurn_left hs lines⟩, ?_⟩
  · rw [request_eq, rest_eq]
    cases hr : ((Stage.asking .kind).run h lines).1 with
    | none =>
      rw [Stage.run_eq_none hr]
      exact ⟨lines, (List.append_nil lines).symm, fun _ => rfl, nofun⟩
    | some r =>
      obtain ⟨before, last, q, hlines, hbefore, hlast⟩ := Stage.run_eq_some hr
      refine ⟨before ++ [last], by simpa using hlines, nofun, ?_⟩
      rintro r' hr'
      obtain rfl := Option.some.inj hr'
      exact ⟨before, last, q, rfl, hbefore, hlast, Question.terminate_iff hlast⟩
  · rintro before line after q reason rfl hbefore hrejected
    have hsame : (Stage.asking .kind).run h (before ++ line :: after) =
        (Stage.asking .kind).run h (before ++ after) := by
      rw [Stage.run_append hbefore, Stage.run_rejected hrejected, Stage.run_append hbefore]
    rw [request_eq, request_eq, rest_eq, rest_eq, hsame]
    exact ⟨rfl, rfl⟩
  · intro hreached k n d hd op ho params hparams
    obtain ⟨hn, -⟩ := List.getElem?_eq_some_iff.1 hd
    obtain ⟨rfl, -⟩ := hreached.valid.legal k d (List.mem_of_getElem? hd)
    have hindex : (UInt8.ofNat n).toNat = n :=
      Utf8.toNat_ofNat_of_lt (by have := hreached.valid.size d.kind; unfold Home.capacity at this; omega)
    refine ⟨UInt8.ofNat n, typed d.kind (UInt8.ofNat n) op params, hindex, fun more => ?_⟩
    rw [request_eq, rest_eq, run_typed (by rw [hindex]; exact hn) ho hparams]
    exact ⟨rfl, rfl⟩

/-- A lamp is asked for after an answer that makes no sense, which might have been left out. The same can
be typed in one go. -/
theorem dialogs_exact_lamp :
    let study := Home.empty.changes [.add .light "desk lamp" 0 [0]]
    let lines := ["lamp", "0", " +00 ", "2", "256", "040", "t"]
    study.Reached ∧ (collect study lines.tail).request = some (.act .light 0 2 [40]) ∧
      (collect study lines.tail).rest = ["t"] ∧ ∃ wanted, ∀ more,
        (collect study (wanted ++ more)).request = some (.act .light 0 2 [40]) ∧
          (collect study (wanted ++ more)).rest = more := by
  intro study lines
  have hreached : study.Reached := ⟨_, rfl⟩
  obtain ⟨-, hrejected, -, hwanted⟩ := dialogs_exact study lines
  have hlamp : Question.put study .kind "lamp" = .error "\"lamp\" is not a number" :=
    (put_eq study .kind "lamp").trans rfl
  obtain ⟨hrequest, hrest⟩ := hrejected [] "lamp" lines.tail .kind _ rfl rfl hlamp
  obtain ⟨index, wanted, hindex, hlines⟩ := hwanted hreached .light 0 _ rfl
    (.adjust 2 "Dim" "Dim level" 0 1) (by decide) [40] rfl
  obtain rfl : index = 0 := UInt8.toNat_inj.1 hindex
  exact ⟨hreached, hrequest, hrest, wanted, hlines⟩

end HomeControl.Prompt
