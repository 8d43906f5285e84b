/-
A line of forms is one sequence.

A session evaluates the forms of a text one after the other, and so does the
sequence form inside an evaluation. With the head of a sequence in front and a line
break and a parenthesis behind it, a text that can be read is read as the one form
that has all its forms as parts; and the session comes to the same value or fault
and the same environments, as long as the host has room for both.

* `ReadsWhole.readEvery_inside`: the forms of a text inside an open list.
* `readAll_sequence`: the text with a sequence around it.
* `Session.evaluates_each`: the forms of a session as expressions in order.
* `Session.evalForms_sequence`: and as one sequence.
* `Logged.Exhausted`: outcomes that are due to a host without room.
* `text_is_one_sequence` (**one sequence**).
-/
import TinyLisp.Proofs.Simulation
import TinyLisp.Proofs.Splitting

namespace TinyLisp

/-! ### Reading inside a list -/

/-- What a token does while one more list is open around everything: a form that is complete joins
the items of that list. -/
def Step.inside (items : List Value) (outer : OpenLists) : Step → Step
  | .more opened => .more (opened ++ items :: outer)
  | .done form => .more ((form :: items) :: outer)
  | .refused f => .refused f
  | .failed f => .failed f

section

variable {opened : OpenLists} {items : List Value} {outer : OpenLists}

lemma arrive_inside (v : Value) :
    arrive v (opened ++ items :: outer) = (arrive v opened).inside items outer := by
  cases opened <;> rfl

/-- Every token does so but a parenthesis that would close the list itself. -/
lemma step_inside {t : Token} (h : ∀ f, step opened t ≠ .refused f) :
    step (opened ++ items :: outer) t = (step opened t).inside items outer := by
  obtain ⟨kind, text⟩ := t
  cases kind with
  | openParen => rfl
  | closeParen =>
      cases opened with
      | nil => exact absurd rfl (h .strayClose)
      | cons own rest => exact arrive_inside _
  | string =>
      simp only [step]
      cases stringBody? text with
      | none => rfl
      | some body => exact arrive_inside _
  | atom | other name =>
      simp only [step]
      cases readAtom text with
      | error f => rfl
      | ok v => exact arrive_inside v

/-- **The forms of a text inside an open list** become items of it. -/
theorem ReadsWhole.readEvery_inside {ts : List Token} {forms : List Value}
    (h : ReadsWhole opened ts forms) (items : List Value) (ts' : List Token) :
    readEvery (opened ++ items :: outer) (ts ++ ts') =
      readEvery ((forms.reverse ++ items) :: outer) ts' := by
  induction h generalizing items with
  | nil => rfl
  | @more opened _ t _ _ hstep _ ih =>
      have hinside : step (opened ++ items :: outer) t = _ := step_inside (by simp [hstep])
      rw [hstep] at hinside
      rw [List.cons_append, readEvery_more hinside, ih]
  | @done opened t _ form _ hstep _ ih =>
      have hinside : step (opened ++ items :: outer) t = _ := step_inside (by simp [hstep])
      have hrest := ih (form :: items)
      rw [hstep] at hinside
      rw [List.nil_append] at hrest
      rw [List.cons_append, readEvery_more hinside, hrest, List.reverse_cons, List.append_assoc,
        List.singleton_append]

end

/-- The text with the head of a sequence in front, and a line break and a parenthesis behind. -/
def sequenceText (c : String) : String :=
  "(do " ++ c ++ "\n)"

/-- The tokens of a text with a sequence around it. -/
lemma ofSource_sequenceText {c : String} (h : ∀ t ∈ Token.ofSource c, t.IsClosed) :
    Token.ofSource (sequenceText c) =
      ⟨.openParen, "("⟩ :: ⟨.atom, "do"⟩ :: (Token.ofSource c ++ [⟨.closeParen, ")"⟩]) := by
  have hchars : (sequenceText c).toList =
      '(' :: (['d', 'o'] ++ ' ' :: (c.toList ++ ['\n', ')'])) := by
    simp [sequenceText]
  have hatom : IsAtom ['d', 'o'] := isAtom_of_all (by decide) rfl
  have hblank : Token.Boundary (' ' :: (c.toList ++ ['\n', ')'])) := Token.boundary_cons rfl _
  rw [Token.ofSource, hchars, Token.tokenize_open,
    Token.tokenize_of_next? (Token.next?_atom hatom hblank), Token.tokenize_blank,
    Token.tokenize_append h, Token.tokenize_close, Token.tokenize_nil]
  rfl

/-- **The text with a sequence around it** is read as the sequence of its forms. -/
theorem readAll_sequence {c : String} {forms : List Value} (h : readAll c = .ok forms) :
    readAll (sequenceText c) = .ok [.list (.sym "do" :: forms)] := by
  obtain ⟨hpass, -⟩ := readAll_eq_ok_iff.mp h
  refine readAll_of_tokens (ofSource_sequenceText hpass.isClosed) ?_ (List.cons_ne_nil _ _)
  have hopen : step [] ⟨.openParen, "("⟩ = .more [[]] := rfl
  have hhead : step [[]] ⟨.atom, "do"⟩ = .more [[.sym "do"]] := rfl
  have hinside : readEvery [[.sym "do"]] (Token.ofSource c ++ [⟨.closeParen, ")"⟩]) =
      readEvery [forms.reverse ++ [.sym "do"]] [⟨.closeParen, ")"⟩] :=
    hpass.readEvery_inside _ _
  have hclose : step [forms.reverse ++ [.sym "do"]] ⟨.closeParen, ")"⟩ =
      .done (.list (.sym "do" :: forms)) := by
    have hitems : (forms.reverse ++ [Value.sym "do"]).reverse = .sym "do" :: forms := by simp
    rw [← hitems]
    rfl
  rw [readEvery_more hopen, readEvery_more hhead, hinside, readEvery_done hclose]
  rfl

/-- An outcome that is due to a host without room. -/
def Logged.Exhausted (after : Logged Value) : Prop :=
  ∃ f, after.outcome = .error f ∧ f.isExhaustion = true

/-! ### Forms in order -/

/-- What the values of some forms come to: the last of them, or `last` when there is none. -/
def Value.lastItem (last : Value) : Value → Value
  | list vs => vs.getLastD last
  | v => v

/-- A sequence comes to the last of the values of its forms, or to their fault. -/
lemma Evaluates.sequence_of_each {limit : Int} {env : ℕ} {forms : List Value} {m : Machine}
    {r : Outcome} (h : Evaluates limit (.each none env forms) m r) :
    Evaluates limit (.expr none env (.list (.sym "do" :: forms))) m
      (.ofResult (r.result.map (Value.lastItem .nil)) r.machine) := by
  refine .special rfl rfl rfl ?_
  cases r with
  | error f m₁ => exact .sequenceFault h
  | ok v m₁ =>
      obtain ⟨vs, rfl⟩ := h.exists_list
      exact .sequence h

/-- One expression in order is the expression itself. -/
lemma Evaluates.each_singleton {limit : Int} {env : ℕ} {e : Value} {m : Machine} {r : Outcome}
    (h : Evaluates limit (.expr none env e) m r) :
    Evaluates limit (.each none env [e]) m (.ofResult (r.result.map fun v => .list [v]) r.machine)
    := by
  cases r with
  | error f m₁ => exact .firstFault h
  | ok v m₁ => exact .cons h .nil

namespace Session

variable {s : Session} {debug : Bool}

/-- **The forms of a session** as expressions in order, with room without a bound and whatever
happened to call frames before. -/
theorem evaluates_each {last : Value} {forms : List Value} (hforms : ∀ form ∈ forms, form.Readable)
    (hr : (s.evalForms debug last forms).outcome ≠ .error .stackDepth) (calls : List CallEvent) :
    ∃ r, Evaluates s.guard.limit (.each none global forms) ⟨s.store, s.guard.depth, calls⟩ r ∧
      (s.evalForms debug last forms).session = { s with store := r.machine.store } ∧
      (s.evalForms debug last forms).outcome = r.result.map (Value.lastItem last) := by
  induction forms generalizing s last calls with
  | nil => exact ⟨_, .nil, rfl, rfl⟩
  | cons form rest ih =>
      obtain ⟨hform, hrest⟩ := List.forall_mem_cons.mp hforms
      rw [evalForms_cons] at hr ⊢
      -- the form is announced, since the session does not end because it lacks room
      rcases announce_cases s debug hform with ⟨lines, hlines⟩ | ⟨hlacks, -⟩
      swap
      · have hfirst : (s.evalForm debug form).outcome = .error .stackDepth := by
          rw [evalForm, hlacks]
        exact absurd ((Logged.andThen_of_error hfirst).symm ▸ hfirst) hr
      obtain ⟨houtcome, hsession⟩ := evalForm_of_announce s debug hlines rfl
      set r₀ : Outcome := runIn s.guard.limit s.room global form ⟨s.store, s.guard.depth, []⟩
      have hr₀ : r₀.result ≠ .error .stackDepth := by
        rintro heq
        rw [← houtcome] at heq
        exact hr ((Logged.andThen_of_error heq).symm ▸ heq)
      obtain ⟨hsame, hstore⟩ := runIn_widen ⟨s.store, s.guard.depth, []⟩
        ⟨s.store, s.guard.depth, calls⟩ s.room.le_none rfl rfl hr₀
      have hwide := evaluates_runIn s.guard.limit none global form ⟨s.store, s.guard.depth, calls⟩
      have hdepth := hwide.depth_eq
      set r₁ : Outcome := runIn s.guard.limit none global form ⟨s.store, s.guard.depth, calls⟩
      rw [← hsame] at houtcome
      rw [← hstore] at hsession
      cases hr₁ : r₁ with
      | error f m₁ =>
          rw [hr₁] at houtcome hsession hwide
          rw [Logged.andThen_of_error houtcome]
          exact ⟨_, .firstFault hwide, hsession, houtcome⟩
      | ok v m₁ =>
          obtain ⟨store₁, depth₁, calls₁⟩ := m₁
          rw [hr₁] at houtcome hsession hwide hdepth
          rw [Logged.andThen_of_ok houtcome, hsession] at hr ⊢
          obtain rfl : depth₁ = s.guard.depth := hdepth
          obtain ⟨r, heach, hsession', houtcome'⟩ := ih hrest hr calls₁
          cases r with
          | error f m₂ => exact ⟨_, .restFault hwide heach, hsession', houtcome'⟩
          | ok w m₂ =>
              obtain ⟨vs, rfl⟩ := heach.exists_list
              have hlast : (v :: vs).getLastD last = vs.getLastD v := List.getLastD_cons
              exact ⟨_, .cons hwide heach, hsession', houtcome'.trans (congrArg _ hlast.symm)⟩

/-- Forms one after the other, and as one sequence. -/
theorem evalForms_sequence {forms : List Value}
    (hreadable : (Value.list (.sym "do" :: forms)).Readable)
    (hapart : (s.evalForms debug .nil forms).outcome ≠ .error .stackDepth)
    (hjoint : (s.evalForms debug .nil [.list (.sym "do" :: forms)]).outcome ≠
      .error .stackDepth) :
    (s.evalForms debug .nil [.list (.sym "do" :: forms)]).outcome =
        (s.evalForms debug .nil forms).outcome ∧
      (s.evalForms debug .nil [.list (.sym "do" :: forms)]).session =
        (s.evalForms debug .nil forms).session := by
  have hforms := (List.forall_mem_cons.mp (Value.allLeaves_list.mp hreadable)).2
  obtain ⟨r, heach, hsession, houtcome⟩ := evaluates_each hforms hapart []
  obtain ⟨r', heach', hsession', houtcome'⟩ :=
    evaluates_each (List.forall_mem_singleton.mpr hreadable) hjoint []
  obtain rfl := heach'.unique heach.sequence_of_each.each_singleton
  rw [hsession, hsession', houtcome, houtcome']
  cases r with
  | error f m => exact ⟨rfl, rfl⟩
  | ok v m => exact ⟨rfl, rfl⟩

/-- A text is read before anything else. -/
lemma hasRoomToRead_of_not_exhausted {c : String} (h : ¬ (s.eval debug c).Exhausted) :
    s.HasRoomToRead c := by
  by_contra hlacks
  have hread : readWithin s.room c = .error .inputDepth := if_neg hlacks
  refine h ⟨.inputDepth, ?_, rfl⟩
  rw [eval, hread]

/-- Room without a bound is never exhausted. -/
lemma not_exhausted_evalForms (hroom : s.room = none) {last : Value} {forms : List Value}
    (hforms : ∀ form ∈ forms, form.Readable) :
    ¬ (s.evalForms debug last forms).Exhausted := by
  rintro ⟨f, hf, hexhausted⟩
  obtain ⟨before, form, after, v, rfl, -, hform⟩ := evalForms_error_iff.mp hf
  have hhost := s.evalForms_sameHost debug last before
  generalize (s.evalForms debug last before).session = s₁ at hhost hform
  have hroom₁ : s₁.room = none := hhost.room.trans hroom
  obtain ⟨lines, hlines⟩ :=
    (announce_cases s₁ debug (hforms form (by simp))).resolve_right fun h => h.2 hroom₁
  have hrun := evaluates_runIn s₁.guard.limit s₁.room global form ⟨s₁.store, s₁.guard.depth, []⟩
  rw [(evalForm_of_announce s₁ debug hlines rfl).1] at hform
  rw [hrun.isExhaustion_eq_false hroom₁ hform] at hexhausted
  nomatch hexhausted

end Session

/-- **A line of forms is one sequence.** A text that can be read, with the head of a sequence in
front and a line break and a parenthesis behind, is read as the one form that has all the forms of
the text as parts. In every state of a session it has the same value or the same fault as the text
and leaves the same session, its environments and its depth of calls, unless one of the two runs
is due to a host without room; and with room without a bound none is. -/
theorem text_is_one_sequence (s : Session) (debug : Bool) (c : String) (forms : List Value)
    (h : readAll c = .ok forms) :
    let apart := s.eval debug c
    let joint := s.eval debug (sequenceText c)
    readAll (sequenceText c) = .ok [.list (.sym "do" :: forms)] ∧
      (¬ apart.Exhausted → ¬ joint.Exhausted →
        joint.outcome = apart.outcome ∧ joint.session = apart.session) ∧
      (s.room = none → ¬ apart.Exhausted ∧ ¬ joint.Exhausted) := by
  intro apart joint
  have hjoint := readAll_sequence h
  have hreadable := readAll_readable hjoint _ List.mem_cons_self
  have hforms := readAll_readable h
  refine ⟨hjoint, fun happart hnot => ?_, fun hroom => ?_⟩
  · have hne (after : Logged Value) (h : ¬ after.Exhausted) : after.outcome ≠ .error .stackDepth :=
      fun heq => h ⟨_, heq, rfl⟩
    have happart' : apart = _ :=
      Session.eval_of_readAll debug (Session.hasRoomToRead_of_not_exhausted happart) h
    have hjoint' : joint = _ :=
      Session.eval_of_readAll debug (Session.hasRoomToRead_of_not_exhausted hnot) hjoint
    rw [happart'] at happart ⊢
    rw [hjoint'] at hnot ⊢
    exact Session.evalForms_sequence hreadable (hne _ happart) (hne _ hnot)
  · have hfits (c : String) : s.HasRoomToRead c := by rw [Session.HasRoomToRead, hroom]; rfl
    have happart : apart = _ := Session.eval_of_readAll debug (hfits c) h
    have hjoint : joint = _ := Session.eval_of_readAll debug (hfits _) hjoint
    rw [happart, hjoint]
    exact ⟨Session.not_exhausted_evalForms hroom hforms,
      Session.not_exhausted_evalForms hroom (List.forall_mem_singleton.mpr hreadable)⟩

/-- A definition with a comment behind it is one sequence of itself. -/
theorem commented_definition_is_one_sequence :
    let s : Session := ⟨Session.initialStore, .ofSetting none, none⟩
    let c := "(def! a 1) ; one"
    readAll (sequenceText c) =
        .ok [.list [.sym "do", .list [.sym "def!", .sym "a", .int 1]]] ∧
      (s.eval false (sequenceText c)).outcome = .ok (.int 1) ∧
      (s.eval false (sequenceText c)).session = (s.eval false c).session := by
  intro s c
  have htokens : Token.ofSource "(def! a 1) ; one" =
      [⟨.openParen, "("⟩, ⟨.atom, "def!"⟩, ⟨.atom, "a"⟩, ⟨.atom, "1"⟩, ⟨.closeParen, ")"⟩] := by
    cbv
  have hread : readAll c = .ok [.list [.sym "def!", .sym "a", .int 1]] :=
    readAll_of_tokens htokens rfl (List.cons_ne_nil _ _)
  have hfits : s.HasRoomToRead c := rfl
  have hvalue : (s.eval false c).outcome = .ok (.int 1) := by
    rw [Session.eval_of_readAll false hfits hread]
    rfl
  obtain ⟨hjoint, hsame, hroom⟩ := text_is_one_sequence s false c _ hread
  obtain ⟨houtcome, hsession⟩ := hsame (hroom rfl).1 (hroom rfl).2
  exact ⟨hjoint, houtcome.trans hvalue, hsession⟩

end TinyLisp
