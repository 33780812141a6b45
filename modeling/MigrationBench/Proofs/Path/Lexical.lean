import MigrationBench.Path.Lexical
import MigrationBench.Proofs.Text.Cuts
import Mathlib.Data.List.Induction

/-!
# Laws of lexical paths

* `PathName.IsPart` — a text that can stand as a part of a path name.
* `PathName.parts_ofString_joinParts` — joined parts are read back.
* `PathName.joinParts_inj` — joined parts tell the parts.
* `PathName.relativeParts_eq_iff` — the way from a directory to a target below it.
* `PathName.key_eq_joinParts_iff` — a path is remembered by the parts that lead to it from the root,
  where these do not climb.
* `PathName.key_eq_key_iff` — two paths are remembered by one text if their absolute texts agree.
-/

namespace MigrationBench.PathName

/-- A text can stand as a part of a path name. -/
def IsPart (part : String) : Prop := isPathPart part.toList = true

instance : DecidablePred IsPart :=
  fun part => inferInstanceAs (Decidable (isPathPart part.toList = true))

theorem IsPart.ne_nil {part : String} (h : IsPart part) : part.toList ≠ [] := by
  intro hnil
  simp [IsPart, isPathPart, hnil] at h

theorem IsPart.ne_point {part : String} (h : IsPart part) : part ≠ "." := by
  rintro rfl
  exact absurd h (by decide)

theorem IsPart.slash_not_mem {part : String} (h : IsPart part) : '/' ∉ part.toList := by
  simp only [IsPart, isPathPart, Bool.and_eq_true, Bool.not_eq_true', List.contains_eq_mem,
    decide_eq_false_iff_not] at h
  exact h.2

theorem isPart_of_mem_parts (p : PathName) {part : String} (h : part ∈ p.parts) : IsPart part :=
  List.all_eq_true.1 p.parts_ok part h

theorem isPart_parent : IsPart ".." := by decide

/-! ### Joined parts -/

/-- Texts without slashes that are joined by slashes are cut apart again. -/
theorem cutAt_intercalate_of_not_mem {parts : List String} (hne : parts ≠ [])
    (h : ∀ p ∈ parts, '/' ∉ p.toList) :
    Text.cutAt '/' (String.intercalate "/" parts).toList = parts.map String.toList := by
  induction parts with
  | nil => exact absurd rfl hne
  | cons p ps ih =>
    have hp : '/' ∉ p.toList := h p (List.mem_cons_self ..)
    cases ps with
    | nil =>
      rw [String.intercalate_singleton, Text.cutAt_of_not_mem hp]
      rfl
    | cons q qs =>
      rw [String.intercalate_cons_cons]
      have htext : (p ++ "/" ++ String.intercalate "/" (q :: qs)).toList
          = p.toList ++ '/' :: (String.intercalate "/" (q :: qs)).toList := by
        simp
      rw [htext, Text.cutAt_append, Text.cutAt_of_not_mem hp,
        ih (by simp) fun r hr => h r (List.mem_cons_of_mem _ hr)]
      rfl

/-- Parts joined by slashes are cut apart again. -/
theorem cutAt_intercalate {parts : List String} (hne : parts ≠ []) (h : ∀ p ∈ parts, IsPart p) :
    Text.cutAt '/' (String.intercalate "/" parts).toList = parts.map String.toList :=
  cutAt_intercalate_of_not_mem hne fun p hp => (h p hp).slash_not_mem

theorem map_ofList_toList (parts : List String) :
    (parts.map String.toList).map String.ofList = parts := by
  rw [List.map_map]
  have hid : String.ofList ∘ String.toList = id := by
    funext s
    exact String.ofList_toList
  rw [hid, List.map_id]

/-- Joined parts tell the parts. -/
theorem joinParts_inj {as bs : List String} (ha : ∀ p ∈ as, IsPart p) (hb : ∀ p ∈ bs, IsPart p)
    (h : joinParts as = joinParts bs) : as = bs := by
  have hpoint : ∀ {ps : List String}, ps ≠ [] → (∀ p ∈ ps, IsPart p) → "." ≠ joinParts ps := by
    intro ps hne hps hpoint
    rw [joinParts, if_neg hne] at hpoint
    have hcut := cutAt_intercalate hne hps
    rw [← hpoint] at hcut
    have hone : ps = ["."] := by
      rw [← map_ofList_toList ps, ← hcut]
      decide
    exact (hps "." (by rw [hone]; simp)).ne_point rfl
  by_cases has : as = []
  · by_cases hbs : bs = []
    · rw [has, hbs]
    · exact absurd (by rw [has] at h; exact h) (hpoint hbs hb)
  · by_cases hbs : bs = []
    · exact absurd (by rw [hbs] at h; exact h.symm) (hpoint has ha)
    · rw [joinParts, joinParts, if_neg has, if_neg hbs] at h
      rw [← map_ofList_toList as, ← map_ofList_toList bs, ← cutAt_intercalate has ha,
        ← cutAt_intercalate hbs hb, h]

theorem toList_joinParts_head {parts : List String} (h : ∀ p ∈ parts, IsPart p) :
    ((joinParts parts).toList.takeWhile (· == '/')).length = 0 := by
  have hhead : ∀ {c : Char} {cs : List Char}, c ≠ '/' →
      ((c :: cs).takeWhile (· == '/')).length = 0 := by
    intro c cs hc
    rw [List.takeWhile_cons, if_neg (by simpa using hc)]
    rfl
  cases parts with
  | nil => decide
  | cons p ps =>
    have hp := h p (List.mem_cons_self ..)
    have hslash := hp.slash_not_mem
    rw [joinParts, if_neg (by simp)]
    obtain ⟨c, cs, hcs⟩ := List.exists_cons_of_ne_nil hp.ne_nil
    rw [hcs, List.mem_cons, not_or] at hslash
    cases ps with
    | nil =>
      rw [String.intercalate_singleton, hcs]
      exact hhead (Ne.symm hslash.1)
    | cons q qs =>
      rw [String.intercalate_cons_cons, String.toList_append, String.toList_append, hcs]
      exact hhead (Ne.symm hslash.1)

/-- The name that joined parts denote is relative and has these parts. -/
theorem parts_ofString_joinParts {parts : List String} (h : ∀ p ∈ parts, IsPart p) :
    (ofString (joinParts parts)).root = .relative ∧ (ofString (joinParts parts)).parts = parts := by
  refine ⟨?_, ?_⟩
  · show rootOf ((joinParts parts).toList.takeWhile (· == '/')).length = .relative
    rw [toList_joinParts_head h]
    rfl
  · show partsOf (joinParts parts).toList = parts
    by_cases hne : parts = []
    · rw [hne]
      decide
    · rw [joinParts, if_neg hne, partsOf, cutAt_intercalate hne h, List.filter_eq_self.2 ?_,
        map_ofList_toList]
      intro cs hcs
      obtain ⟨p, hp, rfl⟩ := List.mem_map.1 hcs
      exact h p hp

/-- A relative text goes on from the name that it is below. -/
theorem below_of_relative (p : PathName) {text : String} (h : (ofString text).root = .relative) :
    (p.below text).root = p.root ∧ (p.below text).parts = p.parts ++ (ofString text).parts := by
  rw [below, join, if_pos h]
  exact ⟨rfl, rfl⟩

/-- An absolute name takes the place of the one that it would be below. -/
theorem below_of_absolute (p : PathName) {text : String} (h : (ofString text).root ≠ .relative) :
    p.below text = ofString text := by
  rw [below, join, if_neg h]

theorem below_joinParts_root (p : PathName) {parts : List String} (h : ∀ q ∈ parts, IsPart q) :
    (p.below (joinParts parts)).root = p.root :=
  (below_of_relative p (parts_ofString_joinParts h).1).1

theorem below_joinParts_parts (p : PathName) {parts : List String} (h : ∀ q ∈ parts, IsPart q) :
    (p.below (joinParts parts)).parts = p.parts ++ parts := by
  rw [(below_of_relative p (parts_ofString_joinParts h).1).2, (parts_ofString_joinParts h).2]

/-! ### Parts without `..` -/

theorem collapse_append (as bs : List String) :
    collapse (as ++ bs) = bs.foldl collapseStep (collapse as) := by
  rw [collapse, List.foldl_append, collapse]

theorem collapse_snoc_parent (as : List String) : collapse (as ++ [".."]) = (collapse as).dropLast := by
  rw [collapse_append]
  rfl

theorem collapse_snoc (as : List String) {part : String} (h : part ≠ "..") :
    collapse (as ++ [part]) = collapse as ++ [part] := by
  rw [collapse_append]
  show collapseStep (collapse as) part = _
  rw [collapseStep, if_neg h]

/-- Parts without `..` are kept as they are. -/
theorem collapse_append_of_not_mem (as : List String) {bs : List String} (h : ".." ∉ bs) :
    collapse (as ++ bs) = collapse as ++ bs := by
  induction bs generalizing as with
  | nil => rw [List.append_nil, List.append_nil]
  | cons b bs ih =>
    rw [List.mem_cons, not_or] at h
    rw [show as ++ b :: bs = (as ++ [b]) ++ bs by simp, ih _ h.2, collapse_snoc as (Ne.symm h.1),
      List.append_assoc, List.singleton_append]

/-- What is left are parts other than `..`. -/
theorem mem_collapse {parts : List String} {part : String} (h : part ∈ collapse parts) :
    part ∈ parts ∧ part ≠ ".." := by
  induction parts using List.reverseRecOn with
  | nil => cases h
  | append_singleton parts last ih =>
    by_cases hlast : last = ".."
    · rw [hlast, collapse_snoc_parent] at h
      obtain ⟨hmem, hne⟩ := ih ((List.dropLast_sublist _).subset h)
      exact ⟨List.mem_append_left _ hmem, hne⟩
    · rw [collapse_snoc parts hlast, List.mem_append, List.mem_singleton] at h
      rcases h with h | rfl
      · obtain ⟨hmem, hne⟩ := ih h
        exact ⟨List.mem_append_left _ hmem, hne⟩
      · exact ⟨List.mem_append_right _ (List.mem_singleton_self _), hlast⟩

theorem isPart_of_mem_absoluteParts {cwd : List String} (hcwd : ∀ p ∈ cwd, IsPart p) (p : PathName)
    {part : String} (h : part ∈ absoluteParts cwd p) : IsPart part := by
  rw [absoluteParts] at h
  split at h
  · rcases List.mem_append.1 (mem_collapse h).1 with hmem | hmem
    · exact hcwd part hmem
    · exact isPart_of_mem_parts p hmem
  · exact isPart_of_mem_parts p (mem_collapse h).1

/-! ### The way from one directory to another -/

theorem relativeParts_append (base rest : List String) : relativeParts base (base ++ rest) = rest := by
  induction base with
  | nil => rfl
  | cons d base ih =>
    rw [List.cons_append, relativeParts, if_pos rfl]
    exact ih

/-- A way that does not climb leads to a target below the directory. -/
theorem relativeParts_eq_iff {base target way : List String} (h : ".." ∉ way) :
    relativeParts base target = way ↔ target = base ++ way := by
  constructor
  · intro hway
    fun_induction relativeParts base target with
    | case1 target => rw [hway, List.nil_append]
    | case2 base hbase =>
      cases base with
      | nil => exact absurd rfl hbase
      | cons d base =>
        rw [← hway, List.map_cons] at h
        exact absurd (List.mem_cons_self ..) h
    | case3 base t target ih => rw [List.cons_append, ← ih hway]
    | case4 d base t target hne =>
      rw [← hway, List.map_cons, List.cons_append] at h
      exact absurd (List.mem_cons_self ..) h
  · rintro rfl
    exact relativeParts_append base way

theorem isPart_of_mem_relativeParts {base target : List String} (htarget : ∀ p ∈ target, IsPart p)
    {part : String} (h : part ∈ relativeParts base target) : IsPart part := by
  fun_induction relativeParts base target with
  | case1 target => exact htarget part h
  | case2 base hbase =>
    obtain ⟨d, -, rfl⟩ := List.mem_map.1 h
    exact isPart_parent
  | case3 base t target ih => exact ih (fun p hp => htarget p (List.mem_cons_of_mem _ hp)) h
  | case4 d base t target hne =>
    rcases List.mem_append.1 h with h | h
    · obtain ⟨d, -, rfl⟩ := List.mem_map.1 h
      exact isPart_parent
    · exact htarget part h

/-- **A path is remembered by the parts that lead to it.** The key of a path is that of parts without
`..` exactly if these lead from the root to the path, both read as texts. -/
theorem key_eq_joinParts_iff {cwd : List String} (hcwd : ∀ p ∈ cwd, IsPart p) (root path : PathName)
    {way : List String} (hway : ∀ p ∈ way, IsPart p) (h : ".." ∉ way) :
    key cwd root path = joinParts way
      ↔ absoluteParts cwd path = absoluteParts cwd root ++ way := by
  rw [← relativeParts_eq_iff h, key]
  constructor
  · refine joinParts_inj (fun p hp => ?_) hway
    exact isPart_of_mem_relativeParts (fun q hq => isPart_of_mem_absoluteParts hcwd path hq) hp
  · intro heq
    rw [heq]

/-- The way from a directory to a target climbs over what the target does not share with it, and goes
down the rest of the target. -/
theorem relativeParts_eq (base target : List String) : ∃ shared up down, base = shared ++ up ∧
    target = shared ++ down ∧ relativeParts base target = up.map (fun _ => "..") ++ down := by
  fun_induction relativeParts base target with
  | case1 target => exact ⟨[], [], target, rfl, rfl, rfl⟩
  | case2 base hbase => exact ⟨[], base, [], rfl, rfl, (List.append_nil _).symm⟩
  | case3 base t target ih =>
    obtain ⟨shared, up, down, hbase, htarget, hway⟩ := ih
    refine ⟨t :: shared, up, down, ?_, ?_, hway⟩
    · rw [List.cons_append, ← hbase]
    · rw [List.cons_append, ← htarget]
  | case4 d base t target hne => exact ⟨[], d :: base, t :: target, rfl, rfl, rfl⟩

/-- The way to a target without `..` tells the target. -/
theorem relativeParts_inj {base a b : List String} (ha : ".." ∉ a) (hb : ".." ∉ b) :
    relativeParts base a = relativeParts base b ↔ a = b := by
  refine ⟨fun h => ?_, fun h => by rw [h]⟩
  obtain ⟨shared, up, down, hbase, rfl, hway⟩ := relativeParts_eq base a
  obtain ⟨shared', up', down', hbase', rfl, hway'⟩ := relativeParts_eq base b
  rw [hway, hway'] at h
  have hcount := congrArg (List.count "..") h
  simp only [List.count_append, List.map_const', List.count_replicate_self] at hcount
  rw [List.count_eq_zero.2 fun hmem => ha (List.mem_append_right _ hmem),
    List.count_eq_zero.2 fun hmem => hb (List.mem_append_right _ hmem)] at hcount
  -- both ways climb as far, so the targets share as much with the directory
  obtain ⟨-, hdown⟩ := List.append_inj h (by simpa using hcount)
  obtain ⟨hshared, -⟩ := List.append_inj' (hbase.symm.trans hbase') (by simpa using hcount)
  rw [hshared, hdown]

theorem parent_not_mem_absoluteParts (cwd : List String) (p : PathName) :
    ".." ∉ absoluteParts cwd p := by
  rw [absoluteParts]
  split <;> exact fun h => (mem_collapse h).2 rfl

/-- Two paths are remembered by one text exactly if their texts lead to one place. -/
theorem key_eq_key_iff {cwd : List String} (hcwd : ∀ p ∈ cwd, IsPart p) (root p q : PathName) :
    key cwd root p = key cwd root q ↔ absoluteParts cwd p = absoluteParts cwd q := by
  rw [← relativeParts_inj (parent_not_mem_absoluteParts cwd p) (parent_not_mem_absoluteParts cwd q)]
  constructor
  · refine joinParts_inj (fun part hpart => ?_) (fun part hpart => ?_)
    · exact isPart_of_mem_relativeParts (fun _ => isPart_of_mem_absoluteParts hcwd p) hpart
    · exact isPart_of_mem_relativeParts (fun _ => isPart_of_mem_absoluteParts hcwd q) hpart
  · intro h
    rw [key, key, h]

theorem absoluteParts_of_absolute (cwd : List String) {p : PathName} (h : p.root ≠ .relative) :
    absoluteParts cwd p = collapse p.parts := by
  rw [absoluteParts]
  cases hroot : p.root with
  | relative => exact absurd hroot h
  | single => rfl
  | double => rfl

/-- The absolute parts of a relative name below a path go on from where those of the path come from. -/
theorem exists_absoluteParts_below (cwd : List String) (p : PathName) {text : String}
    (h : (ofString text).root = .relative) :
    ∃ base, absoluteParts cwd p = collapse base ∧
      absoluteParts cwd (p.below text) = collapse (base ++ (ofString text).parts) := by
  obtain ⟨hroot, hparts⟩ := below_of_relative p h
  rw [absoluteParts, absoluteParts, hroot, hparts]
  cases p.root with
  | relative => exact ⟨cwd ++ p.parts, rfl, by rw [List.append_assoc]⟩
  | single => exact ⟨p.parts, rfl, rfl⟩
  | double => exact ⟨p.parts, rfl, rfl⟩

/-- The absolute parts of a name below the root are those of the root and those of the name. -/
theorem absoluteParts_below_joinParts (cwd : List String) (p : PathName) {parts : List String}
    (hparts : ∀ q ∈ parts, IsPart q) (h : ".." ∉ parts) :
    absoluteParts cwd (p.below (joinParts parts)) = absoluteParts cwd p ++ parts := by
  obtain ⟨hroot, hnamed⟩ := parts_ofString_joinParts hparts
  obtain ⟨base, hbase, hbelow⟩ := exists_absoluteParts_below cwd p hroot
  rw [hbase, hbelow, hnamed, collapse_append_of_not_mem base h]

end MigrationBench.PathName
