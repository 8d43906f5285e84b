/-
Programs in pieces.

A line break ends whatever a readable text leaves open at its end, a comment or
an atom, and strings are closed. So the tokens of two texts with a line break
between them are those of the first and then those of the second, and the forms,
the levels of nesting and the evaluation follow.

* `Token.tokenize_append`: cutting two texts with a line break between them.
* `readAll_append`: the forms of two texts.
* `readLevels_append`: the levels of nesting that reading them takes.
* `Logged.andThen`: one outcome after another, with the log lines of both.
* `Session.evalForms_append`: evaluating forms in two parts.
* `Session.evalForms_error_iff`: the form that fails.
* `Session.evalForm_of_announce`: a form as one evaluation.
* `program_in_two_parts` (**a program in two parts**): evaluating two texts
  together is evaluating one after the other.
-/
import TinyLisp.Proofs.OnePass
import TinyLisp.Proofs.Reachable
import TinyLisp.Proofs.Renderings

namespace TinyLisp

/-! ### Cutting a text with a line break in it -/

namespace Token

/-- A line break ends the comment that layout may end with, and is layout itself. -/
lemma IsLastLayout.append_break {last : List Char} (h : IsLastLayout last) :
    IsLayout (last ++ ['\n']) := by
  cases h with
  | layout h => exact h.append (.separator rfl .nil)
  | comment h hbody =>
      rw [List.append_assoc]
      exact h.append (.comment hbody .nil)

/-- A closed token takes the same of a text with more behind a line break: an atom ends there. -/
lemma Takes.append_break {t : Token} {rest : List Char} (h : t.Takes rest) (ht : t.IsClosed)
    (more : List Char) : t.Takes (rest ++ '\n' :: more) := by
  refine .whole (h.isWhole_of_isClosed ht) fun hkind => ?_
  have hboundary := (h.atom_cases hkind).2
  cases rest with
  | nil => exact boundary_cons rfl _
  | cons c rest => exact boundary_cons (hboundary c rfl) _

/-- **Two texts with a line break between them** are cut into the tokens of the first and those
of the second, when the strings of the first are closed. -/
theorem tokenize_append {s : List Char} (h : ∀ t ∈ tokenize s, t.IsClosed) (rest : List Char) :
    tokenize (s ++ '\n' :: rest) = tokenize s ++ tokenize rest := by
  obtain ⟨placed, last, hfits, rfl⟩ := exists_render s
  rw [tokenize_render hfits] at h ⊢
  induction placed with
  | nil =>
      have hbreak : last ++ '\n' :: rest = last ++ ['\n'] ++ rest := by simp
      rw [render, hbreak, tokenize_append_layout (IsLastLayout.append_break hfits)]
      rfl
  | cons first placed ih =>
      obtain ⟨layout, t⟩ := first
      obtain ⟨hlayout, htakes, hrest⟩ := hfits
      obtain ⟨ht, hclosed⟩ := List.forall_mem_cons.mp h
      have hnext := (htakes.append_break ht rest).next?_behind hlayout
      rw [render, List.append_assoc, List.append_assoc, tokenize_of_next? hnext, ih hrest hclosed]
      rfl

/-- Two source texts with a line break between them. -/
lemma ofSource_append {c₁ : String} (h : ∀ t ∈ ofSource c₁, t.IsClosed) (c₂ : String) :
    ofSource (c₁ ++ "\n" ++ c₂) = ofSource c₁ ++ ofSource c₂ := by
  have hchars : (c₁ ++ "\n" ++ c₂).toList = c₁.toList ++ '\n' :: c₂.toList := by simp
  rw [ofSource, hchars, tokenize_append h, ofSource, ofSource]

end Token

/-! ### Forms of two texts -/

/-- **The forms of two texts** with a line break between them. -/
theorem readAll_append {c₁ c₂ : String} {forms₁ forms₂ : List Value}
    (h₁ : readAll c₁ = .ok forms₁) (h₂ : readAll c₂ = .ok forms₂) :
    readAll (c₁ ++ "\n" ++ c₂) = .ok (forms₁ ++ forms₂) := by
  obtain ⟨hpass₁, hne₁⟩ := readAll_eq_ok_iff.mp h₁
  obtain ⟨hpass₂, -⟩ := readAll_eq_ok_iff.mp h₂
  refine readAll_eq_ok_iff.mpr ⟨?_, List.append_ne_nil_of_left_ne_nil hne₁ _⟩
  rw [Token.ofSource_append hpass₁.isClosed]
  exact hpass₁.append hpass₂

/-! ### One outcome after another -/

/-- One outcome after another: a fault ends both, and a value goes on to the second with the session
that the first left, the log lines of both in order. -/
def Logged.andThen {α β : Type} (first : Logged α) (next : α → Session → Logged β) : Logged β :=
  match first with
  | ⟨.error f, s, log⟩ => ⟨.error f, s, log⟩
  | ⟨.ok v, s, log⟩ => { next v s with log := log ++ (next v s).log }

section

variable {α β γ : Type}

lemma Logged.andThen_of_error {first : Logged α} {next : α → Session → Logged α} {f : Fault}
    (h : first.outcome = .error f) : first.andThen next = first := by
  obtain ⟨outcome, s, log⟩ := first
  obtain rfl : outcome = .error f := h
  rfl

lemma Logged.andThen_of_ok {first : Logged α} {next : α → Session → Logged β} {v : α}
    (h : first.outcome = .ok v) :
    first.andThen next =
      { next v first.session with log := first.log ++ (next v first.session).log } := by
  obtain ⟨outcome, s, log⟩ := first
  obtain rfl : outcome = .ok v := h
  rfl

lemma Logged.andThen_assoc (first : Logged α) (next : α → Session → Logged β)
    (last : β → Session → Logged γ) :
    (first.andThen next).andThen last = first.andThen fun v s => (next v s).andThen last := by
  obtain ⟨outcome, s, log⟩ := first
  cases outcome with
  | error f => rfl
  | ok v =>
      cases hnext : next v s with
      | mk outcome' s' log' => cases outcome' <;> simp [andThen, hnext]

end

namespace Session

variable (s : Session) (debug : Bool)

lemma evalForms_cons (last form : Value) (rest : List Value) :
    s.evalForms debug last (form :: rest) =
      (s.evalForm debug form).andThen fun v s => s.evalForms debug v rest := by
  rw [evalForms]
  split
  · next heq => rw [heq]; rfl
  · next heq => rw [heq]; rfl

/-- **Evaluating forms in two parts**: a fault of the first part ends both. -/
theorem evalForms_append (last : Value) (forms₁ forms₂ : List Value) :
    s.evalForms debug last (forms₁ ++ forms₂) =
      (s.evalForms debug last forms₁).andThen fun v s => s.evalForms debug v forms₂ := by
  induction forms₁ generalizing s last with
  | nil => rfl
  | cons form rest ih =>
      rw [List.cons_append, evalForms_cons, evalForms_cons, Logged.andThen_assoc]
      simp only [ih]

variable {s debug} in
/-- Forms in order fail as one of them does, after those before it came to a value. -/
lemma evalForms_error_iff {last : Value} {forms : List Value} {f : Fault} :
    (s.evalForms debug last forms).outcome = .error f ↔
      ∃ before form after v, forms = before ++ form :: after ∧
        (s.evalForms debug last before).outcome = .ok v ∧
        ((s.evalForms debug last before).session.evalForm debug form).outcome = .error f := by
  refine ⟨fun h => ?_, ?_⟩
  · induction forms generalizing s last with
    | nil => nomatch h
    | cons form rest ih =>
        rw [evalForms_cons] at h
        cases hfirst : (s.evalForm debug form).outcome with
        | error g =>
            rw [Logged.andThen_of_error hfirst] at h
            exact ⟨[], form, rest, last, rfl, rfl, h⟩
        | ok v =>
            rw [Logged.andThen_of_ok hfirst] at h
            obtain ⟨before, form', after, w, rfl, hbefore, hform⟩ := ih h
            refine ⟨form :: before, form', after, w, rfl, ?_⟩
            rw [evalForms_cons, Logged.andThen_of_ok hfirst]
            exact ⟨hbefore, hform⟩
  · rintro ⟨before, form, after, v, rfl, hbefore, hform⟩
    rw [evalForms_append, Logged.andThen_of_ok hbefore, evalForms_cons,
      Logged.andThen_of_error hform]
    exact hform

/-- A readable form is announced, unless there is no room to print it. -/
lemma announce_cases {form : Value} (hform : form.Readable) :
    (∃ lines, s.announce debug form = .ok lines) ∨
      s.announce debug form = .error .stackDepth ∧ s.room ≠ none := by
  obtain ⟨text, hprint, -⟩ := readAll_print hform
  cases debug with
  | false => exact .inl ⟨[], rfl⟩
  | true =>
      rw [announce, if_pos rfl, printWithin, hprint]
      split
      · exact .inl ⟨_, rfl⟩
      · next hlacks =>
          refine .inr ⟨rfl, fun hroom => hlacks ?_⟩
          rw [hroom, Room.fits_none]

/-- A form that is announced is evaluated, and nothing but the store of the session changes. -/
lemma evalForm_of_announce {form : Value} {lines : List LogLine} {r : Outcome}
    (h : s.announce debug form = .ok lines)
    (hrun : runIn s.guard.limit s.room global form ⟨s.store, s.guard.depth, []⟩ = r) :
    (s.evalForm debug form).outcome = r.result ∧
      (s.evalForm debug form).session = { s with store := r.machine.store } := by
  obtain ⟨store, guard, room⟩ := s
  have hdepth := (evaluates_expr_iff.mpr hrun).depth_eq
  simp only [evalForm, h, hrun]
  cases r with
  | ok _ m | error _ m =>
      exact ⟨rfl, congrArg (fun depth => Session.mk m.store { guard with depth } room) hdepth⟩

variable {s} in
/-- The host has room for two texts when it has room for each. -/
lemma HasRoomToRead.append {c₁ c₂ : String} {forms₁ : List Value} (h₁ : s.HasRoomToRead c₁)
    (h₂ : s.HasRoomToRead c₂) (hread : ReadsWhole [] (Token.ofSource c₁) forms₁) :
    s.HasRoomToRead (c₁ ++ "\n" ++ c₂) := by
  unfold HasRoomToRead at *
  have hlevels := hread.readLevels_append (Token.ofSource c₂)
  rw [List.length_nil] at hlevels
  rw [Token.ofSource_append hread.isClosed, hlevels]
  cases hroom : s.room with
  | none => rfl
  | some left =>
      simp only [hroom, Room.fits, decide_eq_true_eq] at h₁ h₂ ⊢
      exact max_le h₁ h₂

end Session

/-- **Two texts together** are evaluated one after the other. -/
lemma Session.eval_append {s : Session} (debug : Bool) {c₁ c₂ : String}
    {forms₁ forms₂ : List Value} (hroom₁ : s.HasRoomToRead c₁) (hroom₂ : s.HasRoomToRead c₂)
    (h₁ : readAll c₁ = .ok forms₁) (h₂ : readAll c₂ = .ok forms₂) :
    s.eval debug (c₁ ++ "\n" ++ c₂) =
      (s.eval debug c₁).andThen fun _ s₁ => s₁.eval debug c₂ := by
  have hpass := (readAll_eq_ok_iff.mp h₁).1
  have hne₂ := (readAll_eq_ok_iff.mp h₂).2
  have hhost := s.evalForms_sameHost debug .nil forms₁
  rw [eval_of_readAll debug (hroom₁.append hroom₂ hpass) (readAll_append h₁ h₂),
    eval_of_readAll debug hroom₁ h₁, evalForms_append]
  cases hfirst : s.evalForms debug .nil forms₁ with
  | mk outcome s₁ log =>
      rw [hfirst] at hhost
      cases outcome with
      | error f => rfl
      | ok v =>
          have hsecond := eval_of_readAll debug (hroom₂.of_sameHost hhost) h₂
          simp only [Logged.andThen, hsecond, s₁.evalForms_of_ne_nil debug hne₂ v .nil]

/-- **A program in two parts.** Two texts that can be read, with a line break between them, are
read as the forms of both, and evaluating them together is evaluating one after the other: a fault
of the first is the fault of both, with nothing of the second evaluated, and else the second is
evaluated in the session that the first left, the log lines of both in order. A text that cannot
be read fails as such, and nothing of it is evaluated. -/
theorem program_in_two_parts (s : Session) (debug : Bool) (c₁ c₂ : String)
    (hroom₁ : s.HasRoomToRead c₁) (hroom₂ : s.HasRoomToRead c₂) :
    let first := s.eval debug c₁
    let second := first.session.eval debug c₂
    let joint := s.eval debug (c₁ ++ "\n" ++ c₂)
    (∀ forms₁ forms₂, readAll c₁ = .ok forms₁ → readAll c₂ = .ok forms₂ →
      readAll (c₁ ++ "\n" ++ c₂) = .ok (forms₁ ++ forms₂) ∧
      (∀ f, first.outcome = .error f → joint = first) ∧
      ∀ v, first.outcome = .ok v →
        joint = ⟨second.outcome, second.session, first.log ++ second.log⟩) ∧
    ∀ f, readAll c₁ = .error f → first = ⟨.error (.read f), s, []⟩ := by
  intro first second joint
  refine ⟨fun forms₁ forms₂ h₁ h₂ => ?_,
    fun f hf => Session.eval_of_readAll_eq_error debug hroom₁ hf⟩
  have hjoint : joint = first.andThen fun _ s₁ => s₁.eval debug c₂ :=
    Session.eval_append debug hroom₁ hroom₂ h₁ h₂
  refine ⟨readAll_append h₁ h₂, fun f hf => ?_, fun v hv => ?_⟩
  · exact hjoint.trans (Logged.andThen_of_error hf)
  · exact hjoint.trans (Logged.andThen_of_ok hv)

/-- A definition with a comment behind it, and a use of what it defines. -/
theorem definition_then_use :
    let s : Session := ⟨Session.initialStore, .ofSetting none, none⟩
    let first := s.eval false "(def! a 1) ; one"
    readAll ("(def! a 1) ; one" ++ "\n" ++ "a") =
        .ok ([.list [.sym "def!", .sym "a", .int 1]] ++ [.sym "a"]) ∧
      s.eval false ("(def! a 1) ; one" ++ "\n" ++ "a") =
        ⟨(first.session.eval false "a").outcome, (first.session.eval false "a").session,
          first.log ++ (first.session.eval false "a").log⟩ := by
  intro s first
  have htokens₁ : Token.ofSource "(def! a 1) ; one" =
      [⟨.openParen, "("⟩, ⟨.atom, "def!"⟩, ⟨.atom, "a"⟩, ⟨.atom, "1"⟩, ⟨.closeParen, ")"⟩] := by
    cbv
  have htokens₂ : Token.ofSource "a" = [⟨.atom, "a"⟩] := by cbv
  have hread₁ : readAll "(def! a 1) ; one" = .ok [.list [.sym "def!", .sym "a", .int 1]] :=
    readAll_of_tokens htokens₁ rfl (List.cons_ne_nil _ _)
  have hread₂ : readAll "a" = .ok [.sym "a"] :=
    readAll_of_tokens htokens₂ rfl (List.cons_ne_nil _ _)
  have hroom : s.HasRoomToRead "(def! a 1) ; one" := rfl
  have hvalue : (s.eval false "(def! a 1) ; one").outcome = .ok (.int 1) := by
    rw [Session.eval_of_readAll false hroom hread₁]
    rfl
  obtain ⟨hjoint, -, hok⟩ := (program_in_two_parts s false _ _ rfl rfl).1 _ _ hread₁ hread₂
  exact ⟨hjoint, hok (.int 1) hvalue⟩

end TinyLisp
