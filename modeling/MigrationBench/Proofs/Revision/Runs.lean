import MigrationBench.Proofs.Revision.Simple

/-!
# Runs on a history

A run adds to a history and asks it, in any order. A step that fails and a question leave the history as it
is, so that only the successful additions count.

* `History.Query`, `History.Step`, `History.Reply` — what can be asked, the steps of a run and their replies.
* `History.replies`, `History.after`, `History.added` — a run: what it replies, the history after it and the
  revisions of its successful additions.
* `History.next_eq_grown`, `History.after_eq_grown` — what a step and a run leave behind.
* `History.replies_succeeding` — a run without the steps that fail.
* `History.Numbered` — an invariant of runs: a revision is numbered by its position, or was added as it is.
* `History.runs_account` — **the state of a history over whole runs**.
-/

namespace MigrationBench.History

/-- A question about a history. -/
inductive Query where
  | size
  | resolve (reference : Option String)
  | change (reference : Option String) (p : Policy) (zone : Offset)
  | changes (p : Policy) (zone : Offset) (lower upper : Option String)

/-- A step of a run: an addition or a question. -/
inductive Step where
  | add (a : Addition)
  | ask (q : Query)

/-- What a step replies; the reply to an addition is the history itself. -/
inductive Reply where
  | history (h : History)
  | size (n : Nat)
  | revision (r : Revision)
  | change (c : Change)
  | changes (cs : List Change)

/-- The reply to a question, or the fault that it meets. -/
def Query.reply (h : History) : Query → Except Fault Reply
  | size => .ok (.size h.size)
  | resolve reference => (h.resolve reference).map .revision
  | change reference p zone => (h.change reference p zone).map .change
  | changes p zone lower upper => (h.changes p zone lower upper).map .changes

namespace Step

/-- The reply of a step and the history that it leaves, or the fault by which it fails. -/
def perform (h : History) : Step → Except Fault (Reply × History)
  | add a => do
    let h' ← (a.apply h).mapError RevisionFault.toFault
    return (.history h', h')
  | ask q => do
    let reply ← q.reply h
    return (reply, h)

/-- The reply of a step, or the fault by which it fails. -/
def reply (h : History) (s : Step) : Except Fault Reply :=
  (s.perform h).map Prod.fst

/-- The history after a step. A step that fails leaves the one that was there. -/
def next (h : History) (s : Step) : History :=
  match s.perform h with
  | .ok (_, h') => h'
  | .error _ => h

/-- The revision that a step adds, if it adds one. -/
def added? (h : History) : Step → Option Revision
  | add (.revision r) => some r
  | add (.simple timestamp message base) =>
    (Revision.build (h.simpleDraft timestamp message base)).toOption
  | ask _ => none

end Step

/-- The replies of a run, step by step. -/
def replies (h : History) : List Step → List (Except Fault Reply)
  | [] => []
  | s :: rest => s.reply h :: replies (s.next h) rest

/-- The history after a run. -/
def after (h : History) (steps : List Step) : History :=
  steps.foldl Step.next h

/-- The revisions of the successful additions of a run, in order. -/
def added (h : History) : List Step → List Revision
  | [] => []
  | s :: rest => (s.added? h).toList ++ added (s.next h) rest

/-- The steps of a run that do not fail. -/
def succeeding (h : History) (steps : List Step) : List Step :=
  ((steps.zip (h.replies steps)).filter (·.2.isOk)).map Prod.fst

variable {h h' : History} {s : Step} {timestamp : Option Stamp} {message : Option String}
  {base : Option PathName} {r : Revision}

/-! ### Single steps -/

theorem added?_simple_eq_some_iff :
    (Step.add (.simple timestamp message base)).added? h = some r ↔
      IsSimpleChange h.author h.size timestamp message base r := by
  rw [Step.added?, ← build_simpleDraft_eq_ok_iff]
  cases Revision.build (h.simpleDraft timestamp message base) with
  | error fault => exact iff_of_false (fun heq => by cases heq) fun heq => by cases heq
  | ok built => simp [Except.toOption]

/-- What a step does: it adds a revision and replies the history, or it replies and leaves the history, or it
fails. -/
theorem perform_cases (h : History) (s : Step) :
    (∃ r, s.added? h = some r ∧ s.perform h = .ok (.history (h.add r), h.add r)) ∨
    (s.added? h = none ∧ ∃ reply, s.perform h = .ok (reply, h)) ∨
    (s.added? h = none ∧ ∃ fault, s.perform h = .error fault) := by
  cases s with
  | add a =>
    cases a with
    | revision r => exact .inl ⟨r, rfl, rfl⟩
    | simple timestamp message base =>
      rw [Step.perform, Step.added?, Addition.apply, addSimple]
      cases Revision.build (h.simpleDraft timestamp message base) with
      | error fault => exact .inr (.inr ⟨rfl, _, rfl⟩)
      | ok r => exact .inl ⟨r, rfl, rfl⟩
  | ask q =>
    rw [Step.perform]
    cases q.reply h with
    | error fault => exact .inr (.inr ⟨rfl, fault, rfl⟩)
    | ok reply => exact .inr (.inl ⟨rfl, reply, rfl⟩)

/-- **What a step leaves behind**: the history with the revision that the step adds, if it adds one. -/
theorem next_eq_grown (h : History) (s : Step) : s.next h = h.grown (s.added? h).toList := by
  rcases perform_cases h s with ⟨r, hadded, hperform⟩ | ⟨hadded, reply, hperform⟩ | ⟨hadded, fault, hperform⟩
  · rw [Step.next, hperform, hadded]
    rfl
  · rw [Step.next, hperform, hadded, Option.toList_none, grown_nil]
  · rw [Step.next, hperform, hadded, Option.toList_none, grown_nil]

theorem next_eq_self_of_error {fault : Fault} (hreply : s.reply h = .error fault) : s.next h = h := by
  rw [Step.reply] at hreply
  rw [Step.next]
  cases hperform : s.perform h with
  | error fault => rfl
  | ok answer =>
    rw [hperform] at hreply
    cases hreply

theorem next_ask (h : History) (q : Query) : (Step.ask q).next h = h := by
  rw [next_eq_grown, Step.added?, Option.toList_none, grown_nil]

/-- An addition succeeds if and only if there is a revision to add. -/
theorem exists_reply_add_iff {a : Addition} :
    (∃ reply, (Step.add a).reply h = .ok reply) ↔ ∃ r, (Step.add a).added? h = some r := by
  cases a with
  | revision r => exact iff_of_true ⟨_, rfl⟩ ⟨r, rfl⟩
  | simple timestamp message base =>
    rw [Step.reply, Step.perform, Step.added?, Addition.apply, addSimple]
    cases Revision.build (h.simpleDraft timestamp message base) with
    | error fault =>
      refine iff_of_false ?_ ?_
      · rintro ⟨reply, heq⟩
        cases heq
      · rintro ⟨r, heq⟩
        cases heq
    | ok r => exact iff_of_true ⟨_, rfl⟩ ⟨r, rfl⟩

/-! ### Runs -/

theorem after_cons (h : History) (s : Step) (rest : List Step) :
    h.after (s :: rest) = (s.next h).after rest := rfl

theorem after_append (h : History) (before rest : List Step) :
    h.after (before ++ rest) = (h.after before).after rest := List.foldl_append

/-- **What a run leaves behind**: the history with the revisions of the successful additions. -/
theorem after_eq_grown (h : History) (steps : List Step) : h.after steps = h.grown (h.added steps) := by
  induction steps generalizing h with
  | nil => rw [added, grown_nil, after, List.foldl_nil]
  | cons s rest ih =>
    rw [after_cons, ih, added, next_eq_grown, grown, grown, grown, List.append_assoc]

/-- A revision that a step adds stands behind those that were there, and stays there. -/
theorem getElem?_after_of_added {before rest : List Step} (hadded : s.added? (h.after before) = some r) :
    (h.after (before ++ s :: rest)).revisions[(h.after before).size]? = some r := by
  rw [after_append, after_cons, after_eq_grown, next_eq_grown, hadded, revisions_grown, revisions_grown,
    Option.toList_some, size, List.append_assoc, List.getElem?_append_right (Nat.le_refl _), Nat.sub_self]
  rfl

/-- **A run without the steps that fail** has the replies of the others and leaves the same history. -/
theorem replies_succeeding (h : History) (steps : List Step) :
    h.replies (h.succeeding steps) = (h.replies steps).filter (·.isOk) ∧
      h.after (h.succeeding steps) = h.after steps := by
  induction steps generalizing h with
  | nil => exact ⟨rfl, rfl⟩
  | cons s rest ih =>
    obtain ⟨hreplies, hafter⟩ := ih (s.next h)
    rw [succeeding, replies, List.zip_cons_cons, List.filter_cons, List.filter_cons]
    cases hreply : s.reply h with
    | error fault =>
      rw [after_cons]
      rw [next_eq_self_of_error hreply] at hreplies hafter ⊢
      exact ⟨hreplies, hafter⟩
    | ok reply =>
      refine ⟨?_, hafter⟩
      change s.reply h :: (s.next h).replies ((s.next h).succeeding rest) = _
      rw [hreplies, hreply]
      rfl

/-! ### Numbers -/

/-- Every revision is numbered by its position, but for those with a property. -/
def Numbered (h : History) (exempt : Revision → Prop) : Prop :=
  ∀ (i : Nat) (r : Revision), h.revisions[i]? = some r → exempt r ∨ r.reference = toString i

variable {exempt : Revision → Prop}

theorem numbered_nil (author : Option Author) : ({ author } : History).Numbered exempt := by
  intro i r hr
  cases hr

/-- A step keeps the numbers, if the revision that it is given may have another one. -/
theorem Numbered.next (hnumbered : h.Numbered exempt)
    (hgiven : ∀ r, s = .add (.revision r) → exempt r) : (s.next h).Numbered exempt := by
  intro i r hr
  rw [next_eq_grown, revisions_grown] at hr
  rcases Nat.lt_or_ge i h.revisions.length with hlt | hge
  · rw [List.getElem?_append_left hlt] at hr
    exact hnumbered i r hr
  · rw [List.getElem?_append_right hge] at hr
    have hadded : s.added? h = some r := Option.mem_toList.1 (List.mem_of_getElem? hr)
    have hlast : i = h.size := by
      obtain ⟨hlt, -⟩ := List.getElem?_eq_some_iff.1 hr
      rw [hadded, Option.toList_some, List.length_singleton] at hlt
      rw [size]
      omega
    cases s with
    | ask q => cases hadded
    | add a =>
      cases a with
      | revision given =>
        cases hadded
        exact .inl (hgiven _ rfl)
      | simple timestamp message base =>
        rw [hlast]
        exact .inr (added?_simple_eq_some_iff.1 hadded).reference

/-- **An invariant of runs**: only revisions that are added as they are may have another number. -/
theorem Numbered.after (hnumbered : h.Numbered exempt) {steps : List Step}
    (hgiven : ∀ r, .add (.revision r) ∈ steps → exempt r) : (h.after steps).Numbered exempt := by
  induction steps generalizing h with
  | nil => exact hnumbered
  | cons s rest ih =>
    rw [after_cons]
    apply ih
    · apply hnumbered.next
      rintro r rfl
      exact hgiven r (List.mem_cons_self ..)
    · intro r hr
      exact hgiven r (List.mem_cons_of_mem _ hr)

/-- The decimal text of a number tells the number. -/
theorem toString_injective {m n : Nat} (heq : toString m = toString n) : m = n := by
  have hdigits : Nat.toDigits 10 m = Nat.toDigits 10 n := String.ofList_injective heq
  rw [← Nat.ofDigitChars_toDigits (b := 10) (n := m) (by decide) (by decide), hdigits,
    Nat.ofDigitChars_toDigits (by decide) (by decide)]

/-- In a history that is numbered throughout, no two revisions have the same reference. -/
theorem Numbered.nodup (hnumbered : h.Numbered fun _ => False) :
    (h.revisions.map (·.reference)).Nodup := by
  rw [List.nodup_iff_getElem?_ne_getElem?]
  intro i j hij hj heq
  rw [List.length_map] at hj
  have hi : i < h.revisions.length := by omega
  have hfirst := (hnumbered i _ (List.getElem?_eq_getElem hi)).resolve_left id
  have hsecond := (hnumbered j _ (List.getElem?_eq_getElem hj)).resolve_left id
  rw [List.getElem?_map, List.getElem?_map, List.getElem?_eq_getElem hi, List.getElem?_eq_getElem hj,
    Option.map_some, Option.map_some, Option.some_inj, hfirst, hsecond] at heq
  have hsame : i = j := toString_injective heq
  omega

/-- A reference that only one revision has stands for that one. -/
theorem resolve_of_nodup (hnodup : (h.revisions.map (·.reference)).Nodup) (hr : r ∈ h.revisions) :
    h.resolve (some r.reference) = .ok r := by
  rw [resolve_eq_ok_iff]
  cases hfind : h.revisions.find? (·.reference == r.reference) with
  | none =>
    have hother := List.find?_eq_none.1 hfind r hr
    simp at hother
  | some found =>
    have hreference : found.reference = r.reference := by simpa using List.find?_some hfind
    rw [List.inj_on_of_nodup_map hnodup (List.mem_of_find?_eq_some hfind) hr hreference]

/-! ### The state of a history over whole runs -/

/-- What a step of a run contributes, told by the history before it and the last one of the run. -/
structure Accounts (h last : History) (s : Step) : Prop where
  /-- Only what the step adds is new. -/
  leaves : s.next h = h.grown (s.added? h).toList
  /-- A step that fails leaves the history as it is. -/
  fails : ∀ fault, s.reply h = .error fault → s.next h = h
  /-- A question leaves the history as it is. -/
  asks : ∀ q, s = .ask q → s.next h = h
  /-- The steps that add a revision are the additions that do not fail. -/
  adds : (∃ r, s.added? h = some r) ↔ (∃ a, s = .add a) ∧ ∃ reply, s.reply h = .ok reply
  /-- An addition replies the history with the revision. -/
  replies : ∀ r, s.added? h = some r → s.reply h = .ok (.history (h.add r))
  /-- The revision keeps its position up to the end of the run. -/
  stays : ∀ r, s.added? h = some r → last.revisions[h.size]? = some r
  /-- A revision is added as it is. -/
  given : ∀ r, s = .add (.revision r) → s.added? h = some r
  /-- A simple change needs an author and a message that declares no label twice. -/
  simple : ∀ timestamp message base, s = .add (.simple timestamp message base) →
    ((∃ r, s.added? h = some r) ↔ h.author ≠ none ∧
      ∃ text, message = some text ∧ ((Label.pairsOfMessage text).map Prod.fst).Nodup) ∧
    ∀ r, s.added? h = some r → IsSimpleChange h.author h.size timestamp message base r

theorem accounts_of_run (h : History) (before : List Step) (s : Step) (rest : List Step) :
    (h.after before).Accounts (h.after (before ++ s :: rest)) s where
  leaves := next_eq_grown _ s
  fails _ := next_eq_self_of_error
  asks := by
    rintro q rfl
    exact next_ask _ q
  adds := by
    cases s with
    | add a => rw [and_iff_right ⟨a, rfl⟩, exists_reply_add_iff]
    | ask q =>
      refine iff_of_false ?_ ?_
      · rintro ⟨r, heq⟩
        cases heq
      · rintro ⟨⟨a, heq⟩, -⟩
        cases heq
  replies := by
    intro r hr
    rcases perform_cases (h.after before) s with ⟨r', hadded, hperform⟩ | ⟨hadded, -⟩ | ⟨hadded, -⟩
    · rw [hadded, Option.some_inj] at hr
      rw [Step.reply, hperform, hr]
      rfl
    · rw [hadded] at hr
      cases hr
    · rw [hadded] at hr
      cases hr
  stays _ := getElem?_after_of_added
  given := by
    rintro r rfl
    rfl
  simple := by
    rintro timestamp message base rfl
    simp only [added?_simple_eq_some_iff]
    exact ⟨exists_isSimpleChange_iff, fun _ => id⟩

/-- **The state of a history over whole runs.** A run of additions and questions starts with no revisions.
The history after it has the revisions of the successful additions, in order, and each step contributes what
`Accounts` says: a question and a step that fails leave the history as it is, and the revision of a simple
change has its position as its reference, the author of the history, and what it is given. Without the steps
that fail the others have the same replies. If all additions are simple changes, their references are
distinct, and each number stands for the revision at its position. -/
theorem runs_account (author : Option Author) (steps : List Step) :
    let start : History := { author }
    start.after steps = { author, revisions := start.added steps } ∧
    (∀ before s rest, steps = before ++ s :: rest →
      (start.after before).author = author ∧ (start.after before).Accounts (start.after steps) s) ∧
    (start.replies (start.succeeding steps) = (start.replies steps).filter (·.isOk) ∧
      start.after (start.succeeding steps) = start.after steps) ∧
    ((∀ r, .add (.revision r) ∉ steps) →
      ((start.after steps).revisions.map (·.reference)).Nodup ∧
      ∀ (i : Nat) (r : Revision), (start.after steps).revisions[i]? = some r →
        (start.after steps).resolve (some (toString i)) = .ok r) := by
  intro start
  refine ⟨?_, ?_, replies_succeeding start steps, ?_⟩
  · rw [after_eq_grown, grown]
    rfl
  · rintro before s rest rfl
    refine ⟨?_, accounts_of_run start before s rest⟩
    rw [after_eq_grown]
    rfl
  · intro hsimple
    have hnumbered : (start.after steps).Numbered fun _ => False :=
      (numbered_nil author).after hsimple
    refine ⟨hnumbered.nodup, ?_⟩
    intro i r hr
    rw [← (hnumbered i r hr).resolve_left id]
    exact resolve_of_nodup hnumbered.nodup (List.mem_of_getElem? hr)

/-- A simple change, three steps that fail, and another simple change. -/
def unevenSteps : List Step :=
  [.add (.simple none (some "one") none), .add (.simple none none none), .ask (.resolve (some "9")),
    .add (.simple none (some "A: 1\nA: 2") none), .add (.simple none (some "two") none)]

/-- The second simple change has the number 1, which leads to it; the message that is missing adds nothing,
and without the steps that fail there are two replies. -/
theorem runs_of_unevenSteps :
    let last := ({} : History).after unevenSteps
    last.revisions.map (·.reference) = ["0", "1"] ∧
    (({} : History).after (unevenSteps.take 1)).Accounts last (.add (.simple none none none)) ∧
    (({} : History).replies (({} : History).succeeding unevenSteps)).length = 2 ∧
    ∃ r, r.message = "two" ∧ last.resolve (some (toString 1)) = .ok r := by
  intro last
  obtain ⟨-, haccounts, ⟨hreplies, -⟩, hnumbers⟩ := runs_account (some Author.placeholder) unevenSteps
  have hsimple : ∀ r, .add (.revision r) ∉ unevenSteps := by
    intro r hr
    simp [unevenSteps] at hr
  have hsecond : (last.revisions[1]?.map (·.message)) = some "two" := by decide
  obtain ⟨r, hr, hmessage⟩ := Option.map_eq_some_iff.1 hsecond
  refine ⟨by decide, (haccounts (unevenSteps.take 1) _ (unevenSteps.drop 2) rfl).2, ?_,
    r, hmessage, (hnumbers hsimple).2 1 r hr⟩
  rw [hreplies]
  decide

end MigrationBench.History
