import MigrationBench.Revision.Basic
import MigrationBench.Proofs.Label.Message
import MigrationBench.Proofs.Steps

/-!
# Chains of overrides

Every override builds a whole revision anew. So a chain of overrides can fail at each of its values, also
at one that a later override replaces; but what is built in the end depends on the last values alone.

* `Revision.build_eq_ok_iff` — the revision of a draft.
* `Override.IsAllowed`, `Override.fault?` — whether a value can be set, and the fault otherwise:
  `Revision.override_eq_ok_iff`, `Revision.override_eq_error_iff`.
* `Revision.overrideAll_eq_ok_iff` — a chain writes its values into one draft, one after another.
* `Override.apply_comm`, `Override.foldl_apply_absorb` — writes to different fields commute, and a later
  write replaces an earlier one.
* `lastGiven`, `Revision.IsOverridden` — the last value given for a field; a revision with the last values.
* `Revision.override_normalForm` — **the normal form of a chain**.
-/

namespace MigrationBench

namespace Revision

variable {r s : Revision} {d : Draft}

/-! ### The revision of a draft -/

/-- A revision is determined by its draft: the labels are those of the message. -/
theorem toDraft_injective (h : r.toDraft = s.toDraft) : r = s := by
  have hlabels := r.labels_eq
  have hlabels' := s.labels_eq
  cases r
  cases s
  simp only [toDraft, Draft.mk.injEq, Option.some.injEq, BaseChoice.given.injEq] at h
  obtain ⟨rfl, rfl, rfl, rfl, rfl, rfl, rfl, rfl⟩ := h
  have heq := hlabels.symm.trans hlabels'
  cases heq
  rfl

theorem require_eq_ok_iff {α : Type} {field : RevisionField} {given : Option α} {value : α} :
    require field given = .ok value ↔ given = some value := by
  cases given <;> simp [require]

theorem checkedLabels_eq_error {outcome : Except LabelMap.Repeated LabelMap}
    {cause : LabelMap.Repeated} (h : outcome = .error cause) :
    checkedLabels outcome = .error (.repeatedLabel cause) := by
  subst h
  rfl

theorem checkedLabels_eq_ok {outcome : Except LabelMap.Repeated LabelMap} {labels : LabelMap}
    (h : outcome = .ok labels) : checkedLabels outcome = .ok ⟨labels, h⟩ := by
  subst h
  rfl

/-- **The revision of a draft** has the fields of the draft, and the base path that the draft chooses. -/
theorem build_eq_ok_iff :
    build d = .ok r ↔ basePath? r.reference d.changesBase = some r.changesBase ∧
      r.toDraft = { d with changesBase := .given r.changesBase } := by
  rw [build]
  constructor
  · intro h
    obtain ⟨reference, hreference, h⟩ := Steps.bind_eq_ok_iff.1 h
    obtain ⟨message, hmessage, h⟩ := Steps.bind_eq_ok_iff.1 h
    obtain ⟨author, hauthor, h⟩ := Steps.bind_eq_ok_iff.1 h
    obtain ⟨base, hbase, h⟩ := Steps.bind_eq_ok_iff.1 h
    obtain ⟨labels, hlabels, h⟩ := Steps.bind_eq_ok_iff.1 h
    rw [require_eq_ok_iff] at hreference hmessage hauthor hbase hlabels
    split at h
    · cases h
    · obtain ⟨checked, -, h⟩ := Steps.bind_eq_ok_iff.1 h
      cases h
      refine ⟨hbase, ?_⟩
      rw [toDraft, ← hreference, ← hmessage, ← hauthor, ← hlabels]
  · rintro ⟨hbase, hdraft⟩
    obtain ⟨reference, message, author, changesBase, timestamp, contextReference, referenceLabels,
      matchesGlob⟩ := d
    simp only [toDraft, Draft.mk.injEq] at hdraft
    obtain ⟨rfl, rfl, rfl, -, rfl, rfl, rfl, rfl⟩ := hdraft
    simp only [require, hbase, bind, Except.bind, dif_neg r.reference_ne,
      checkedLabels_eq_ok r.labels_eq]

/-- A revision is built again from its draft. -/
theorem build_toDraft (r : Revision) : build r.toDraft = .ok r :=
  build_eq_ok_iff.2 ⟨rfl, rfl⟩

end Revision

/-! ### Single overrides -/

namespace Override

/-- Every revision takes the value: it is not missing where it has to be there, and a message declares no
label twice. -/
def IsAllowed : Override → Prop
  | timestamp _ | matchesGlob _ => True
  | author value => value ≠ none
  | referenceLabels value => value ≠ none
  | contextReference value => value ≠ none
  | message value => ∃ text, value = some text ∧ ((Label.pairsOfMessage text).map Prod.fst).Nodup

/-- The fault of a value that no revision takes. -/
def fault? : Override → Option RevisionFault
  | timestamp _ | matchesGlob _ => none
  | author value => if value = none then some (.argument (.missingField .author)) else none
  | referenceLabels value =>
    if value = none then some (.argument (.missingField .referenceLabels)) else none
  | contextReference value => if value = none then some (.argument .noContextReference) else none
  | message none => some (.argument (.missingField .message))
  | message (some text) =>
    match LabelMap.ofMessage text with
    | .ok _ => none
    | .error cause => some (.repeatedLabel cause)

theorem fault?_eq_none_iff {o : Override} : o.fault? = none ↔ o.IsAllowed := by
  cases o with
  | timestamp value => exact iff_of_true rfl trivial
  | matchesGlob value => exact iff_of_true rfl trivial
  | author value => simp [fault?, IsAllowed]
  | referenceLabels value => simp [fault?, IsAllowed]
  | contextReference value => simp [fault?, IsAllowed]
  | message value =>
    cases value with
    | none => simp [fault?, IsAllowed]
    | some text =>
      cases hlabels : LabelMap.ofMessage text with
      | ok labels =>
        have hnodup := (LabelMap.ofMessage_eq_ok_iff.1 hlabels).1
        simp [fault?, IsAllowed, hlabels, hnodup]
      | error cause =>
        obtain ⟨i, j, hrepeat⟩ := LabelMap.ofMessage_eq_error_iff.1 hlabels
        simp [fault?, IsAllowed, hlabels, hrepeat.not_nodup]

/-- No override touches the base path. -/
theorem changesBase_apply (d : Draft) (o : Override) : (o.apply d).changesBase = d.changesBase := by
  cases o <;> rfl

end Override

namespace Revision

variable {r s : Revision} {o : Override}

/-- **An override** keeps the base path of a revision and writes one value into its draft. -/
theorem override_eq_ok_iff :
    r.override o = .ok s ↔ o ≠ .contextReference none ∧ s.toDraft = o.apply r.toDraft := by
  rw [override]
  by_cases hcontext : o = .contextReference none
  · rw [if_pos hcontext]
    exact iff_of_false (fun h => by cases h) fun h => h.1 hcontext
  · have hbase : (o.apply r.toDraft).changesBase = .given r.changesBase := o.changesBase_apply r.toDraft
    rw [if_neg hcontext, build_eq_ok_iff, hbase, basePath?, Option.some_inj, and_iff_right hcontext]
    constructor
    · rintro ⟨heq, hdraft⟩
      rw [hdraft, ← heq, ← hbase]
    · intro hdraft
      have heq : s.changesBase = r.changesBase := by
        have hgiven := congrArg Draft.changesBase hdraft
        rw [hbase] at hgiven
        exact BaseChoice.given.inj hgiven
      rw [hdraft, heq, ← hbase]
      exact ⟨rfl, rfl⟩

/-- A value that no revision takes is found by the same fault in all of them. -/
theorem override_of_fault? {fault : RevisionFault} (h : o.fault? = some fault) :
    r.override o = .error fault := by
  cases o with
  | timestamp value => cases h
  | matchesGlob value => cases h
  | author value | referenceLabels value | contextReference value =>
    rw [Override.fault?] at h
    split at h
    · subst value
      cases h
      rfl
    · cases h
  | message value =>
    cases value with
    | none =>
      cases h
      rfl
    | some text =>
      rw [Override.fault?] at h
      split at h
      · cases h
      · rename_i cause hlabels
        cases h
        have hne : Override.message (some text) ≠ .contextReference none := by simp
        rw [override, if_neg hne, build]
        simp only [Override.apply, toDraft, require, basePath?, bind, Except.bind,
          dif_neg r.reference_ne, checkedLabels_eq_error hlabels]

/-- A value that is allowed can be set in every revision. -/
theorem exists_override (r : Revision) (h : o.IsAllowed) : ∃ s, r.override o = .ok s := by
  cases o with
  | timestamp value =>
    exact ⟨{ r with timestamp := value }, override_eq_ok_iff.2 ⟨by simp, rfl⟩⟩
  | matchesGlob value =>
    exact ⟨{ r with matchesGlob := value }, override_eq_ok_iff.2 ⟨by simp, rfl⟩⟩
  | author value =>
    obtain ⟨author, rfl⟩ := Option.ne_none_iff_exists'.1 h
    exact ⟨{ r with author }, override_eq_ok_iff.2 ⟨by simp, rfl⟩⟩
  | referenceLabels value =>
    obtain ⟨referenceLabels, rfl⟩ := Option.ne_none_iff_exists'.1 h
    exact ⟨{ r with referenceLabels }, override_eq_ok_iff.2 ⟨by simp, rfl⟩⟩
  | contextReference value =>
    obtain ⟨contextReference, rfl⟩ := Option.ne_none_iff_exists'.1 h
    exact ⟨{ r with contextReference := some contextReference }, override_eq_ok_iff.2 ⟨by simp, rfl⟩⟩
  | message value =>
    obtain ⟨text, rfl, hnodup⟩ := h
    obtain ⟨labels, hlabels⟩ := LabelMap.exists_ofMessage hnodup
    exact ⟨{ r with message := text, descriptionLabels := labels, labels_eq := hlabels },
      override_eq_ok_iff.2 ⟨by simp, rfl⟩⟩

theorem override_eq_error_iff {fault : RevisionFault} :
    r.override o = .error fault ↔ o.fault? = some fault := by
  refine ⟨fun h => ?_, override_of_fault?⟩
  cases hfault : o.fault? with
  | none =>
    obtain ⟨s, hs⟩ := r.exists_override (Override.fault?_eq_none_iff.1 hfault)
    rw [hs] at h
    cases h
  | some other =>
    rw [override_of_fault? hfault] at h
    cases h
    rfl

theorem isAllowed_of_override (h : r.override o = .ok s) : o.IsAllowed := by
  rw [← Override.fault?_eq_none_iff]
  cases hfault : o.fault? with
  | none => rfl
  | some fault =>
    rw [override_of_fault? hfault] at h
    cases h

/-! ### Chains -/

/-- A revision with values set one after another. -/
def overrideAll (r : Revision) (os : List Override) : Except RevisionFault Revision :=
  os.foldlM override r

theorem overrideAll_cons (r : Revision) (o : Override) (os : List Override) :
    r.overrideAll (o :: os) = r.override o >>= fun t => t.overrideAll os := by
  rw [overrideAll, List.foldlM_cons]
  rfl

/-- **A chain of overrides** writes its values into one draft, one after another, if all are allowed. -/
theorem overrideAll_eq_ok_iff {os : List Override} :
    r.overrideAll os = .ok s ↔
      (∀ o ∈ os, o.IsAllowed) ∧ s.toDraft = os.foldl Override.apply r.toDraft := by
  -- on the chain: after the first override another revision is overridden
  induction os generalizing r with
  | nil =>
    constructor
    · intro h
      cases h
      exact ⟨List.forall_mem_nil _, rfl⟩
    · intro h
      rw [toDraft_injective h.2]
      rfl
  | cons o os ih =>
    rw [overrideAll_cons, Steps.bind_eq_ok_iff, List.forall_mem_cons, List.foldl_cons]
    constructor
    · rintro ⟨t, ht, hs⟩
      obtain ⟨hallowed, hdraft⟩ := ih.1 hs
      rw [(override_eq_ok_iff.1 ht).2] at hdraft
      exact ⟨⟨isAllowed_of_override ht, hallowed⟩, hdraft⟩
    · rintro ⟨⟨ho, hallowed⟩, hdraft⟩
      obtain ⟨t, ht⟩ := r.exists_override ho
      rw [← (override_eq_ok_iff.1 ht).2] at hdraft
      exact ⟨t, ht, ih.2 ⟨hallowed, hdraft⟩⟩

/-- A chain fails by the fault of its first value that is not allowed. -/
theorem overrideAll_eq_error_iff {os : List Override} {fault : RevisionFault} :
    r.overrideAll os = .error fault ↔ os.findSome? Override.fault? = some fault := by
  induction os generalizing r with
  | nil => exact iff_of_false (fun h => by cases h) fun h => by cases h
  | cons o os ih =>
    rw [overrideAll_cons, Steps.bind_eq_error_iff, override_eq_error_iff, List.findSome?_cons]
    cases hfault : o.fault? with
    | some other =>
      constructor
      · rintro (heq | ⟨t, ht, -⟩)
        · exact heq
        · rw [override_of_fault? hfault] at ht
          cases ht
      · exact fun heq => .inl heq
    | none =>
      constructor
      · rintro (heq | ⟨t, -, ht⟩)
        · cases heq
        · exact ih.1 ht
      · intro h
        obtain ⟨t, ht⟩ := r.exists_override (Override.fault?_eq_none_iff.1 hfault)
        exact .inr ⟨t, ht, ih.2 h⟩

theorem exists_overrideAll_iff {os : List Override} :
    (∃ s, r.overrideAll os = .ok s) ↔ ∀ o ∈ os, o.IsAllowed := by
  constructor
  · rintro ⟨s, hs⟩
    exact (overrideAll_eq_ok_iff.1 hs).1
  · intro hallowed
    cases hs : r.overrideAll os with
    | ok s => exact ⟨s, rfl⟩
    | error fault =>
      obtain ⟨o, ho, hfault⟩ := List.exists_of_findSome?_eq_some (overrideAll_eq_error_iff.1 hs)
      rw [Override.fault?_eq_none_iff.2 (hallowed o ho)] at hfault
      cases hfault

/-- Two chains have one outcome if their first faults are the same and they write the same values. -/
theorem overrideAll_congr {os os' : List Override}
    (hfault : os.findSome? Override.fault? = os'.findSome? Override.fault?)
    (hdraft : os.foldl Override.apply r.toDraft = os'.foldl Override.apply r.toDraft) :
    r.overrideAll os = r.overrideAll os' := by
  cases hs : r.overrideAll os with
  | error fault =>
    rw [overrideAll_eq_error_iff, hfault, ← overrideAll_eq_error_iff (r := r)] at hs
    exact hs.symm
  | ok s =>
    cases hs' : r.overrideAll os' with
    | error fault =>
      rw [overrideAll_eq_error_iff, ← hfault, ← overrideAll_eq_error_iff (r := r), hs] at hs'
      cases hs'
    | ok s' =>
      have hsame : s.toDraft = s'.toDraft := by
        rw [(overrideAll_eq_ok_iff.1 hs).2, hdraft, (overrideAll_eq_ok_iff.1 hs').2]
      rw [toDraft_injective hsame]

/-- Two chains that give the same values succeed with one revision or fail both, if they write the same
values in the end. -/
theorem toOption_overrideAll_congr {os os' : List Override} (hperm : os.Perm os')
    (hdraft : os.foldl Override.apply r.toDraft = os'.foldl Override.apply r.toDraft) :
    (r.overrideAll os).toOption = (r.overrideAll os').toOption := by
  have hallowed : (∀ o ∈ os, o.IsAllowed) ↔ ∀ o ∈ os', o.IsAllowed := by
    constructor
    · intro h o ho
      exact h o (hperm.mem_iff.2 ho)
    · intro h o ho
      exact h o (hperm.mem_iff.1 ho)
  have hok : ∀ s, r.overrideAll os = .ok s ↔ r.overrideAll os' = .ok s := by
    intro s
    rw [overrideAll_eq_ok_iff, overrideAll_eq_ok_iff, hallowed, hdraft]
  cases hs : r.overrideAll os with
  | ok s => rw [(hok s).1 hs]
  | error fault =>
    cases hs' : r.overrideAll os' with
    | ok s =>
      rw [(hok s).2 hs'] at hs
      cases hs
    | error fault' => rfl

end Revision

/-! ### Writes to a draft -/

namespace Override

/-- The fields that can be overridden. -/
inductive Field where
  | timestamp
  | author
  | message
  | referenceLabels
  | matchesGlob
  | contextReference
deriving DecidableEq, Repr

/-- The field that an override sets. -/
def field : Override → Field
  | timestamp _ => .timestamp
  | author _ => .author
  | message _ => .message
  | referenceLabels _ => .referenceLabels
  | matchesGlob _ => .matchesGlob
  | contextReference _ => .contextReference

/-- Writes to different fields commute. -/
theorem apply_comm {a b : Override} (h : a.field ≠ b.field) (d : Draft) :
    b.apply (a.apply d) = a.apply (b.apply d) := by
  cases a <;> cases b <;> first | rfl | exact absurd rfl h

/-- A second write to a field replaces the first one. -/
theorem apply_absorb {a b : Override} (h : a.field = b.field) (d : Draft) :
    b.apply (a.apply d) = b.apply d := by
  cases a <;> cases b <;> first | rfl | cases h

/-- A later write to a field replaces an earlier one, whatever is written between them. -/
theorem foldl_apply_absorb {a b : Override} (h : a.field = b.field) (between : List Override)
    (d : Draft) : b.apply (between.foldl apply (a.apply d)) = b.apply (between.foldl apply d) := by
  -- on the writes between: one to the same field replaces the first write already
  induction between generalizing d with
  | nil => exact apply_absorb h d
  | cons o between ih =>
    rw [List.foldl_cons, List.foldl_cons]
    by_cases ho : a.field = o.field
    · rw [apply_absorb ho]
    · rw [apply_comm ho, ih]

/-! ### The last values -/

/-- The timestamp that an override gives. -/
def timestamp? : Override → Option (Option Stamp)
  | timestamp value => some value
  | _ => none

/-- The author that an override gives. -/
def author? : Override → Option Author
  | author value => value
  | _ => none

/-- The message that an override gives. -/
def message? : Override → Option String
  | message value => value
  | _ => none

/-- The labels that an override gives. -/
def referenceLabels? : Override → Option LabelMap
  | referenceLabels value => value
  | _ => none

/-- The choice of the file pattern that an override gives. -/
def matchesGlob? : Override → Option (Option Bool)
  | matchesGlob value => some value
  | _ => none

/-- The context reference that an override gives. -/
def contextReference? : Override → Option (Option String)
  | contextReference value => some value
  | _ => none

/-- The last value that a chain gives for a field, or the one that the field had before. -/
def lastGiven {α : Type} (given : Override → Option α) (kept : α) (os : List Override) : α :=
  (os.filterMap given).getLast?.getD kept

theorem lastGiven_cons {α : Type} (given : Override → Option α) (kept : α) (o : Override)
    (os : List Override) : lastGiven given kept (o :: os) = lastGiven given ((given o).getD kept) os := by
  rw [lastGiven, lastGiven, List.filterMap_cons]
  cases given o with
  | none => rfl
  | some value => simp [List.getLast?_cons]

/-- A field of a draft that every allowed write sets to the value given, or else keeps, has the last value
given. -/
theorem field_foldl_apply {α β : Type} {value : Draft → β} {view : α → β} {given : Override → Option α}
    (hstep : ∀ (o : Override) d kept, o.IsAllowed → value d = view kept →
      value (o.apply d) = view ((given o).getD kept)) {os : List Override}
    (hallowed : ∀ o ∈ os, o.IsAllowed) {d : Draft} {kept : α} (h : value d = view kept) :
    value (os.foldl apply d) = view (lastGiven given kept os) := by
  induction os generalizing d kept with
  | nil => exact h
  | cons o os ih =>
    obtain ⟨ho, hallowed⟩ := List.forall_mem_cons.1 hallowed
    rw [List.foldl_cons, lastGiven_cons]
    exact ih hallowed (hstep o d kept ho h)

end Override

namespace Revision

/-- A revision with the last values that a chain gives. Its reference and its base path are those of the
first one, and its labels are those of its own message. -/
structure IsOverridden (r : Revision) (os : List Override) (s : Revision) : Prop where
  reference : s.reference = r.reference
  changesBase : s.changesBase = r.changesBase
  timestamp : s.timestamp = Override.lastGiven Override.timestamp? r.timestamp os
  author : s.author = Override.lastGiven Override.author? r.author os
  message : s.message = Override.lastGiven Override.message? r.message os
  referenceLabels :
    s.referenceLabels = Override.lastGiven Override.referenceLabels? r.referenceLabels os
  matchesGlob : s.matchesGlob = Override.lastGiven Override.matchesGlob? r.matchesGlob os
  contextReference :
    s.contextReference = Override.lastGiven Override.contextReference? r.contextReference os
  descriptionLabels : s.descriptionLabels.pairs = Label.pairsOfMessage s.message

variable {r s : Revision}

/-- **What a chain leads to** has the last value given for each field. -/
theorem isOverridden_of_overrideAll {os : List Override} (h : r.overrideAll os = .ok s) :
    r.IsOverridden os s := by
  obtain ⟨hallowed, hdraft⟩ := overrideAll_eq_ok_iff.1 h
  have hkept : ∀ {α : Type} (kept : α), Override.lastGiven (fun _ => none) kept os = kept := by
    intro α kept
    simp [Override.lastGiven]
  have hreference : s.toDraft.reference = some r.reference := by
    rw [hdraft, ← hkept r.reference]
    refine Override.field_foldl_apply (fun o d kept _ hd => ?_) hallowed rfl
    cases o <;> exact hd
  have hbase : s.toDraft.changesBase = .given r.changesBase := by
    rw [hdraft, ← hkept r.changesBase]
    refine Override.field_foldl_apply (fun o d kept _ hd => ?_) hallowed rfl
    exact (o.changesBase_apply d).trans hd
  have htimestamp : s.toDraft.timestamp
      = id (Override.lastGiven Override.timestamp? r.timestamp os) := by
    rw [hdraft]
    refine Override.field_foldl_apply (fun o d kept _ hd => ?_) hallowed rfl
    cases o with
    | timestamp value => rfl
    | _ => exact hd
  have hauthor : s.toDraft.author = some (Override.lastGiven Override.author? r.author os) := by
    rw [hdraft]
    refine Override.field_foldl_apply (fun o d kept ho hd => ?_) hallowed rfl
    cases o with
    | author value =>
      obtain ⟨author, rfl⟩ := Option.ne_none_iff_exists'.1 ho
      rfl
    | _ => exact hd
  have hmessage : s.toDraft.message = some (Override.lastGiven Override.message? r.message os) := by
    rw [hdraft]
    refine Override.field_foldl_apply (fun o d kept ho hd => ?_) hallowed rfl
    cases o with
    | message value =>
      obtain ⟨text, rfl, -⟩ := ho
      rfl
    | _ => exact hd
  have hlabels : s.toDraft.referenceLabels
      = some (Override.lastGiven Override.referenceLabels? r.referenceLabels os) := by
    rw [hdraft]
    refine Override.field_foldl_apply (fun o d kept ho hd => ?_) hallowed rfl
    cases o with
    | referenceLabels value =>
      obtain ⟨labels, rfl⟩ := Option.ne_none_iff_exists'.1 ho
      rfl
    | _ => exact hd
  have hglob : s.toDraft.matchesGlob
      = id (Override.lastGiven Override.matchesGlob? r.matchesGlob os) := by
    rw [hdraft]
    refine Override.field_foldl_apply (fun o d kept _ hd => ?_) hallowed rfl
    cases o with
    | matchesGlob value => rfl
    | _ => exact hd
  have hcontext : s.toDraft.contextReference
      = id (Override.lastGiven Override.contextReference? r.contextReference os) := by
    rw [hdraft]
    refine Override.field_foldl_apply (fun o d kept _ hd => ?_) hallowed rfl
    cases o with
    | contextReference value => rfl
    | _ => exact hd
  exact {
    reference := Option.some.inj hreference
    changesBase := BaseChoice.given.inj hbase
    timestamp := htimestamp
    author := Option.some.inj hauthor
    message := Option.some.inj hmessage
    referenceLabels := Option.some.inj hlabels
    matchesGlob := hglob
    contextReference := hcontext
    descriptionLabels := (LabelMap.ofMessage_eq_ok_iff.1 s.labels_eq).2 }

/-- **The normal form of a chain of overrides.** A chain on any revision succeeds if and only if every
value in it is allowed, also one that is replaced later. It then leads to a revision with the last value
given for each field and the labels of its own message, which is built again from its fields. Overrides of
different fields commute, and a later override of a field absorbs an earlier one that is allowed. -/
theorem override_normalForm (r : Revision) (os : List Override) :
    ((∃ s, r.overrideAll os = .ok s) ↔ ∀ o ∈ os, o.IsAllowed) ∧
    (∀ s, r.overrideAll os = .ok s →
      r.IsOverridden os s ∧ s.reference ≠ "" ∧ build s.toDraft = .ok s) ∧
    (∀ a b : Override, a.field ≠ b.field →
      (r.overrideAll (a :: b :: os)).toOption = (r.overrideAll (b :: a :: os)).toOption) ∧
    ∀ (a b : Override) (between : List Override), a.IsAllowed → a.field = b.field →
      r.overrideAll (a :: between ++ b :: os) = r.overrideAll (between ++ b :: os) := by
  refine ⟨exists_overrideAll_iff, ?_, ?_, ?_⟩
  · intro s hs
    exact ⟨isOverridden_of_overrideAll hs, s.reference_ne, build_toDraft s⟩
  · intro a b hfield
    apply toOption_overrideAll_congr (.swap b a os)
    simp only [List.foldl_cons, Override.apply_comm hfield]
  · intro a b between ha hfield
    apply overrideAll_congr
    · rw [List.cons_append, List.findSome?_cons, Override.fault?_eq_none_iff.2 ha]
    · simp only [List.cons_append, List.foldl_cons, List.foldl_append,
        Override.foldl_apply_absorb hfield]

/-- A revision without labels. -/
def plainRevision : Revision where
  reference := "7"
  message := "one"
  author := Author.placeholder
  changesBase := baseDirectory.below "7"
  timestamp := none
  contextReference := none
  referenceLabels := LabelMap.empty
  matchesGlob := some true
  descriptionLabels := LabelMap.empty
  reference_ne := by decide
  labels_eq := by cbv

/-- Of two messages the last one stays, with its label; but a message that declares a label twice ends a
chain, though the next one would replace it. -/
theorem override_messages :
    (∃ s, plainRevision.overrideAll [.message (some "A: 1"), .timestamp none, .message (some "B: 2")]
      = .ok s ∧ s.message = "B: 2" ∧ s.descriptionLabels.pairs = [("B", "2")]) ∧
    ¬ ∃ s, plainRevision.overrideAll [.message (some "A: 1\nA: 2"), .message (some "B: 2")] = .ok s := by
  have hfirst : Label.pairsOfMessage "A: 1" = [("A", "1")] := by decide
  have hlast : Label.pairsOfMessage "B: 2" = [("B", "2")] := by decide
  have htwice : Label.pairsOfMessage "A: 1\nA: 2" = [("A", "1"), ("A", "2")] := by decide
  constructor
  · obtain ⟨hok, hfields, -⟩ := override_normalForm plainRevision
      [.message (some "A: 1"), .timestamp none, .message (some "B: 2")]
    obtain ⟨s, hs⟩ := hok.2 (by simp [Override.IsAllowed, hfirst, hlast])
    obtain ⟨hoverridden, -⟩ := hfields s hs
    have hmessage : s.message = "B: 2" := by
      rw [hoverridden.message, Override.lastGiven_cons, Override.lastGiven_cons, Override.lastGiven_cons]
      rfl
    refine ⟨s, hs, hmessage, ?_⟩
    rw [hoverridden.descriptionLabels, hmessage, hlast]
  · obtain ⟨hok, -⟩ := override_normalForm plainRevision
      [.message (some "A: 1\nA: 2"), .message (some "B: 2")]
    rw [hok]
    simp [Override.IsAllowed, htwice]

end Revision

end MigrationBench
