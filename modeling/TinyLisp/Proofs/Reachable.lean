/-
Sessions on texts.

A session is led from state to state by the texts that it evaluates, whether they
succeed or fail. Every form of a text is readable, so a discipline that allows
readable forms and the primitives is kept by every state that a session comes to.

* `Session.Leads`: the states that a session comes to.
* `Discipline.ForTexts`: what a discipline has to allow for that.
* `Session.Obeys`, `Session.eval_obeys`, `Session.Leads.obeys`: the store of a
  session, and what a session computes, keep every such discipline.
* `Session.SameHost`, `Session.Leads.sameHost`: texts change neither the guard nor
  the room.
* `Session.HasRoomToRead`, `Session.eval_of_readAll`: where the host has room for
  a text, its forms are evaluated.
-/
import TinyLisp.Proofs.Discipline
import TinyLisp.Proofs.Readable
import TinyLisp.Session

namespace TinyLisp

/-- The states that a session comes to by evaluating texts and printing their values. -/
inductive Session.Leads (s : Session) : Session → Prop where
  | refl : Leads s s
  | eval {s'} (h : Leads s s') (debug : Bool) (source : String) :
    Leads s (s'.eval debug source).session
  | respond {s'} (h : Leads s s') (debug : Bool) (source : String) :
    Leads s (s'.respond debug source).session

/-- What a discipline has to allow for texts: the global environment, readable forms and the
primitives. -/
structure Discipline.ForTexts (d : Discipline) : Prop where
  global : d.env 1 Session.global
  form : ∀ {e : Value}, e.Readable → d.source 1 e
  builtin : ∀ p, d.value 1 (.builtin p)

/-- A session that keeps a discipline: its store has the global environment and keeps it. -/
structure Session.Obeys (d : Discipline) (s : Session) : Prop where
  size_pos : 0 < s.store.size
  store : s.store.Obeys d

/-- A logged outcome that keeps a discipline. -/
structure Logged.Obeys (d : Discipline) (after : Logged Value) : Prop where
  session : after.session.Obeys d
  value : ∀ v, after.outcome = .ok v → d.value after.session.store.size v

namespace Session

variable {d : Discipline} {s : Session}

/-! ### One text -/

lemma evalForm_obeys (hd : d.ForTexts) (hs : s.Obeys d) (debug : Bool) {form : Value}
    (hform : form.Readable) : (s.evalForm debug form).Obeys d := by
  obtain ⟨store, guard, room⟩ := s
  have hsize : 1 ≤ store.size := hs.size_pos
  have hjob : (Job.expr room global form).Obeys d store.size :=
    ⟨d.env_mono hsize hd.global, d.source_mono hsize (hd.form hform)⟩
  have hrun := evaluates_runIn guard.limit room global form ⟨store, guard.depth, []⟩
  have hobeys := hrun.obeys hs.store hjob
  have hle := hrun.size_le
  unfold evalForm
  split
  · exact ⟨hs, nofun⟩
  · simp only
    split
    · next v m heq =>
        rw [heq] at hobeys hle
        refine ⟨⟨hsize.trans hle, hobeys.store⟩, fun w hw => ?_⟩
        rw [← Except.ok.inj hw]
        exact hobeys.value_ok
    · next f m heq =>
        rw [heq] at hobeys hle
        exact ⟨⟨hsize.trans hle, hobeys.store⟩, nofun⟩

lemma evalForms_obeys (hd : d.ForTexts) (hs : s.Obeys d) (debug : Bool) {forms : List Value}
    (hforms : ∀ form ∈ forms, form.Readable) {last : Value} (hlast : d.value s.store.size last) :
    (s.evalForms debug last forms).Obeys d := by
  induction forms generalizing s last with
  | nil =>
      refine ⟨hs, fun v hv => ?_⟩
      rw [← Except.ok.inj hv]
      exact hlast
  | cons form rest ih =>
      have hfirst := evalForm_obeys hd hs debug (hforms form List.mem_cons_self)
      rw [evalForms]
      split
      · next f s' log heq =>
          rw [heq] at hfirst
          exact ⟨hfirst.session, nofun⟩
      · next v s' log heq =>
          rw [heq] at hfirst
          have hrest := ih hfirst.session (fun form hform =>
            hforms form (List.mem_cons_of_mem _ hform)) (hfirst.value v rfl)
          exact ⟨hrest.session, hrest.value⟩

lemma readAll_of_readWithin {room : Room} {source : String} {forms : List Value}
    (h : readWithin room source = .ok forms) : readAll source = .ok forms := by
  unfold readWithin at h
  split at h
  · exact eq_ok_of_mapError_eq_ok h
  · nomatch h

/-- **What a text computes** keeps the discipline, and so does the session after it. -/
theorem eval_obeys (hd : d.ForTexts) (hs : s.Obeys d) (debug : Bool) (source : String) :
    (s.eval debug source).Obeys d := by
  unfold eval
  split
  · exact ⟨hs, nofun⟩
  · next forms heq =>
      have hread := readAll_of_readWithin heq
      -- a text has a form, so the value before its forms may be any that the discipline allows
      rw [s.evalForms_of_ne_nil debug (ne_nil_of_readAll hread) _ .nil]
      exact evalForms_obeys hd hs debug (readAll_readable hread) (d.value_nil _)

/-! ### Whole sessions -/

lemma initialStore_obeys (hd : d.ForTexts) : initialStore.Obeys d := by
  refine (Store.Obeys.root d).setAll _ _ fun entry hentry => ?_
  obtain ⟨p, -, rfl⟩ := List.mem_map.mp hentry
  exact hd.builtin p

lemma initialStore_size : initialStore.size = 1 :=
  Store.size_setAll _ _ _

lemma start_obeys {guard : CallGuard} {room : Room} (hd : d.ForTexts)
    (h : start guard room = .ok s) : s.Obeys d := by
  obtain ⟨_, -, rfl⟩ := exists_of_map_eq_ok h
  exact ⟨initialStore_size.ge, initialStore_obeys hd⟩

/-- **Every state of a session** keeps the discipline. -/
theorem Leads.obeys {s' : Session} (hd : d.ForTexts) (h : s.Leads s') (hs : s.Obeys d) :
    s'.Obeys d := by
  induction h with
  | refl => exact hs
  | eval _ debug source ih | respond _ debug source ih =>
      exact (eval_obeys hd ih debug source).session

/-! ### Guard and room -/

/-- Two states of one session: they have the same guard and the same room. -/
structure SameHost (s s' : Session) : Prop where
  guard : s'.guard = s.guard
  room : s'.room = s.room

lemma SameHost.refl (s : Session) : s.SameHost s := ⟨rfl, rfl⟩

lemma SameHost.trans {s s' s'' : Session} (h : s.SameHost s') (h' : s'.SameHost s'') :
    s.SameHost s'' :=
  ⟨h'.guard.trans h.guard, h'.room.trans h.room⟩

/-- A form leaves the guard as it was, because every call frame is closed again. -/
lemma evalForm_sameHost (s : Session) (debug : Bool) (form : Value) :
    s.SameHost (s.evalForm debug form).session := by
  obtain ⟨store, guard, room⟩ := s
  have hdepth := (evaluates_runIn guard.limit room global form ⟨store, guard.depth, []⟩).depth_eq
  unfold evalForm
  split
  · exact .refl _
  · simp only
    split
    all_goals
      next heq =>
      rw [heq] at hdepth
      exact ⟨congrArg (fun depth => { guard with depth }) hdepth, rfl⟩

lemma evalForms_sameHost (s : Session) (debug : Bool) (last : Value) (forms : List Value) :
    s.SameHost (s.evalForms debug last forms).session := by
  induction forms generalizing s last with
  | nil => exact .refl s
  | cons form rest ih =>
      have hfirst := evalForm_sameHost s debug form
      rw [evalForms]
      split
      · next heq => rwa [heq] at hfirst
      · next v s' log heq =>
          rw [heq] at hfirst
          exact hfirst.trans (ih s' v)

/-- A text changes neither the guard nor the room. -/
lemma eval_sameHost (s : Session) (debug : Bool) (source : String) :
    s.SameHost (s.eval debug source).session := by
  unfold eval
  split
  · exact .refl s
  · exact evalForms_sameHost s debug _ _

lemma Leads.sameHost {s' : Session} (h : s.Leads s') : s.SameHost s' := by
  induction h with
  | refl => exact .refl s
  | eval _ debug source ih | respond _ debug source ih =>
      exact ih.trans (eval_sameHost _ debug source)

/-! ### Room to read -/

section

variable (s) in
/-- The host has room to read a text. -/
def HasRoomToRead (c : String) : Prop :=
  s.room.fits (readLevels 0 (Token.ofSource c)) = true

/-- Room without a bound does for every text. -/
lemma hasRoomToRead_of_room_eq_none (hroom : s.room = none) (c : String) : s.HasRoomToRead c := by
  rw [HasRoomToRead, hroom]
  rfl

/-- There is as much room in every state of a session. -/
lemma HasRoomToRead.of_sameHost {s' : Session} {c : String} (h : s.HasRoomToRead c)
    (hhost : s.SameHost s') : s'.HasRoomToRead c := by
  rwa [HasRoomToRead, hhost.room]

variable (debug : Bool) {c : String}

lemma readWithin_eq (hroom : s.HasRoomToRead c) :
    readWithin s.room c = (readAll c).mapError .read :=
  if_pos hroom

/-- A text that can be read is evaluated form by form, whatever stands before its forms. -/
lemma eval_of_readAll {forms : List Value} (hroom : s.HasRoomToRead c)
    (h : readAll c = .ok forms) : s.eval debug c = s.evalForms debug .nil forms := by
  rw [s.evalForms_of_ne_nil debug (ne_nil_of_readAll h) .nil (.foreign .absent), eval,
    readWithin_eq hroom, h]
  rfl

/-- A text that cannot be read is not evaluated at all. -/
lemma eval_of_readAll_eq_error {f : ReadFault} (hroom : s.HasRoomToRead c)
    (h : readAll c = .error f) : s.eval debug c = ⟨.error (.read f), s, []⟩ := by
  rw [eval, readWithin_eq hroom, h]
  rfl

end

end Session

end TinyLisp
