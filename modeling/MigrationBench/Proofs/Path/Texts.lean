import MigrationBench.Proofs.Path.Lexical

/-!
# Keys computed on texts

The key of a path is computed twice, and on texts: when a name is checked it is the way from the root to
the path, both made absolute and normalised; when a walk meets a file it is what is left of its path
behind the root, normalised. Both agree with the computation on parts.

* `PathName.pieces`, `PathName.joinText`, `PathName.normalText` — path texts cut at slashes, joined and
  normalised.
* `PathName.absoluteText`, `PathName.relativeText` — the text from the top, and the way from one text to
  another.
* `PathName.walkText`, `PathName.relativeTo?`, `PathName.walkKey?` — the text of a directory in a walk,
  what is left of a path behind another one, and the key of a file that a walk meets.
* `PathName.ofString_render`, `PathName.ofString_joinText` — what the texts denote.
* `PathName.namedPieces_absoluteText` — the parts of an absolute normalised text.
* `PathName.key_eq_normalText`, `PathName.walkKey?_eq` — the two computations.
-/

namespace MigrationBench.PathName

/-! ### The computations -/

/-- What stands between the slashes of a text. -/
def pieces (text : String) : List String :=
  (Text.cutAt '/' text.toList).map String.ofList

/-- What stands between the slashes of a text and is not empty. -/
def namedPieces (text : String) : List String :=
  (pieces text).filter (· ≠ "")

/-- The slashes that a text starts with, as far as they count. -/
def startOf (text : String) : PathRoot :=
  rootOf (text.toList.takeWhile (· == '/')).length

/-- One more piece of a text that is normalised. Empty pieces and points are dropped; `..` takes back the
piece before it. Where there is none to take back it stays, but for an absolute text it is dropped. -/
def normalStep (isAbsolute : Bool) (parts : List String) (piece : String) : List String :=
  if piece = "" ∨ piece = "." then parts
  else if piece = ".." then
    if parts.getLast? = some ".." ∨ (parts = [] ∧ isAbsolute = false) then parts ++ [piece]
    else parts.dropLast
  else parts ++ [piece]

/-- The pieces that are left of a text when it is normalised. -/
def normalParts (text : String) : List String :=
  (pieces text).foldl (normalStep (startOf text != .relative)) []

/-- A path text, normalised. -/
def normalText (text : String) : String :=
  let written := rootText (startOf text) ++ String.intercalate "/" (normalParts text)
  if written = "" then "." else written

/-- A path text behind another one. An absolute text replaces the other one, and one slash is put
between them unless it is there. -/
def joinText (above text : String) : String :=
  if text.toList.head? = some '/' ∨ above = "" then text
  else if above.toList.getLast? = some '/' then above ++ text
  else above ++ "/" ++ text

/-- The text of the current directory. -/
def cwdText (cwd : List String) : String :=
  "/" ++ String.intercalate "/" cwd

/-- A path text from the top, normalised. -/
def absoluteText (cwd : List String) (text : String) : String :=
  normalText (joinText (cwdText cwd) text)

/-- The text of the way from one path text to another. -/
def relativeText (cwd : List String) (text base : String) : String :=
  let way := relativeParts (namedPieces (absoluteText cwd base)) (namedPieces (absoluteText cwd text))
  if way = [] then "." else way.foldl joinText ""

/-- The text by which a walk of a root enters a directory below it. -/
def walkText (root : PathName) (directories : List String) : String :=
  directories.foldl joinText root.render

/-- What is left of a path behind another one that it goes on from. -/
def relativeTo? (path base : PathName) : Option PathName :=
  if path.root = base.root ∧ base.parts <+: path.parts then
    some ⟨.relative, path.parts.drop base.parts.length, List.all_eq_true.2 fun part hpart =>
      List.all_eq_true.1 path.parts_ok part (List.mem_of_mem_drop hpart)⟩
  else none

/-- The key of a file that a walk of a root meets in a directory. -/
def walkKey? (root : PathName) (directories : List String) (name : String) : Option String :=
  (relativeTo? ((ofString (walkText root directories)).below name) root).map fun path =>
    normalText path.render

/-! ### Pieces -/

theorem pieces_append (front behind : String) :
    pieces (front ++ "/" ++ behind) = pieces front ++ pieces behind := by
  have hchars : (front ++ "/" ++ behind).toList = front.toList ++ '/' :: behind.toList := by simp
  rw [pieces, hchars, Text.cutAt_append, List.map_append]
  rfl

theorem pieces_intercalate {parts : List String} (hne : parts ≠ [])
    (h : ∀ part ∈ parts, '/' ∉ part.toList) : pieces (String.intercalate "/" parts) = parts := by
  rw [pieces, cutAt_intercalate_of_not_mem hne h, map_ofList_toList]

/-- The parts of the name that a text denotes are its pieces that count. -/
theorem parts_ofString (text : String) :
    (ofString text).parts = (pieces text).filter fun piece => piece ≠ "" ∧ piece ≠ "." := by
  show partsOf text.toList = _
  rw [partsOf, pieces, List.filter_map]
  refine congrArg _ (List.filter_congr fun piece hpiece => ?_)
  have hslash := Text.not_mem_of_mem_cutAt hpiece
  have hpoint : String.ofList piece = "." ↔ piece = ['.'] := String.ofList_inj
  rw [Function.comp_apply, Bool.eq_iff_iff, decide_eq_true_eq, ne_eq, ne_eq, String.ofList_eq_empty_iff,
    hpoint, isPathPart]
  simp [hslash]

/-- A slash between two texts ends the last part of the first one. -/
theorem parts_ofString_slash (above text : String) :
    (ofString (above ++ "/" ++ text)).parts = (ofString above).parts ++ (ofString text).parts := by
  rw [parts_ofString, parts_ofString, parts_ofString, pieces_append, List.filter_append]

theorem eq_of_parts {p q : PathName} (hroot : p.root = q.root) (hparts : p.parts = q.parts) : p = q := by
  cases p
  cases q
  cases hroot
  cases hparts
  rfl

/-! ### Slashes at the start -/

theorem startOf_append {front behind : String}
    (h : (∃ c ∈ front.toList, c ≠ '/') ∨ behind.toList.head? ≠ some '/') :
    startOf (front ++ behind) = startOf front := by
  rw [startOf, startOf, String.toList_append, List.takeWhile_append]
  split
  · rename_i hall
    -- the front is all slashes
    have hslashes : ∀ c ∈ front.toList, c = '/' := fun c hc => by
      have hprefix := List.takeWhile_prefix (p := (· == '/')) (l := front.toList)
      rw [← hprefix.eq_of_length hall] at hc
      simpa using List.mem_takeWhile_imp hc
    have hhead : behind.toList.head? ≠ some '/' := by
      rcases h with ⟨c, hc, hne⟩ | hhead
      · exact absurd (hslashes c hc) hne
      · exact hhead
    have hnone : behind.toList.takeWhile (· == '/') = [] := by
      cases hbehind : behind.toList with
      | nil => rfl
      | cons c cs =>
        rw [hbehind, List.head?_cons, ne_eq, Option.some_inj] at hhead
        exact List.takeWhile_cons_of_neg (by simpa using hhead)
    rw [hnone, List.append_nil, hall]
  · rfl

theorem startOf_eq_relative_iff {text : String} :
    startOf text = .relative ↔ text.toList.head? ≠ some '/' := by
  rw [startOf]
  cases htext : text.toList with
  | nil => decide
  | cons c cs =>
    rw [List.head?_cons, ne_eq, Option.some_inj]
    by_cases hc : c = '/'
    · refine iff_of_false ?_ (not_not_intro hc)
      rw [List.takeWhile_cons_of_pos (by simpa using hc), List.length_cons, rootOf]
      split
      · omega
      · split <;> simp
    · rw [List.takeWhile_cons_of_neg (by simpa using hc)]
      exact iff_of_true rfl hc

theorem head_intercalate {parts : List String} (h : ∀ part ∈ parts, IsPart part) :
    (String.intercalate "/" parts).toList.head? ≠ some '/' := by
  cases parts with
  | nil => exact Option.some_ne_none _ ∘ Eq.symm
  | cons part rest =>
    have hhead := toList_joinParts_head h
    rw [joinParts, if_neg (List.cons_ne_nil _ _), List.length_eq_zero_iff] at hhead
    intro hslash
    obtain ⟨cs, hcs⟩ := List.head?_eq_some_iff.1 hslash
    rw [hcs, List.takeWhile_cons_of_pos rfl] at hhead
    cases hhead

theorem startOf_written (root : PathRoot) {parts : List String} (h : ∀ part ∈ parts, IsPart part) :
    startOf (rootText root ++ String.intercalate "/" parts) = root := by
  rw [startOf_append (.inr (head_intercalate h))]
  cases root <;> decide

theorem pieces_written (root : PathRoot) (text : String) :
    ∃ n, pieces (rootText root ++ text) = List.replicate n "" ++ pieces text := by
  cases root with
  | relative => exact ⟨0, by rw [rootText, String.empty_append]; rfl⟩
  | single => exact ⟨1, pieces_append "" text⟩
  | double => exact ⟨2, pieces_append "/" text⟩

/-- The pieces of a written path that count are its parts. -/
theorem filter_pieces_written (root : PathRoot) {parts : List String}
    (h : ∀ part ∈ parts, IsPart part) {counts : String → Bool} (hempty : counts "" = false)
    (hparts : ∀ part ∈ parts, counts part = true) :
    (pieces (rootText root ++ String.intercalate "/" parts)).filter counts = parts := by
  obtain ⟨n, hpieces⟩ := pieces_written root (String.intercalate "/" parts)
  have hnone : (List.replicate n "").filter counts = [] :=
    List.filter_eq_nil_iff.2 fun piece hpiece => by
      rw [List.eq_of_mem_replicate hpiece, hempty]
      exact Bool.false_ne_true
  rw [hpieces, List.filter_append, hnone, List.nil_append]
  by_cases hne : parts = []
  · rw [hne]
    exact List.filter_cons_of_neg (by rw [hempty]; exact Bool.false_ne_true)
  · rw [pieces_intercalate hne fun part hpart => (h part hpart).slash_not_mem,
      List.filter_eq_self.2 hparts]

theorem namedPieces_written (root : PathRoot) {parts : List String}
    (h : ∀ part ∈ parts, IsPart part) :
    namedPieces (rootText root ++ String.intercalate "/" parts) = parts := by
  refine filter_pieces_written root h (by decide) fun part hpart => decide_eq_true ?_
  rintro rfl
  exact (h _ hpart).ne_nil rfl

theorem parts_written (root : PathRoot) {parts : List String} (h : ∀ part ∈ parts, IsPart part) :
    (ofString (rootText root ++ String.intercalate "/" parts)).parts = parts := by
  rw [parts_ofString]
  refine filter_pieces_written root h (by decide) fun part hpart => decide_eq_true ⟨?_, ?_⟩
  · rintro rfl
    exact (h _ hpart).ne_nil rfl
  · exact (h part hpart).ne_point

/-- The text of a path name denotes it. -/
theorem ofString_render (p : PathName) : ofString p.render = p := by
  rw [render]
  split
  · rename_i hpoint
    exact eq_of_parts hpoint.1.symm hpoint.2.symm
  · have hparts : ∀ part ∈ p.parts, IsPart part := fun part => isPart_of_mem_parts p
    exact eq_of_parts (startOf_written p.root hparts) (parts_written p.root hparts)

/-- **A joined text** denotes the name below the other one. -/
theorem ofString_joinText (above text : String) :
    ofString (joinText above text) = (ofString above).below text := by
  rw [joinText, below, join]
  by_cases hslash : text.toList.head? = some '/'
  · have hroot : (ofString text).root ≠ .relative := fun h => startOf_eq_relative_iff.1 h hslash
    rw [if_pos (.inl hslash), if_neg hroot]
  · have hroot : (ofString text).root = .relative := startOf_eq_relative_iff.2 hslash
    rw [if_pos hroot]
    by_cases hempty : above = ""
    · rw [if_pos (.inr hempty), hempty]
      exact eq_of_parts hroot rfl
    · rw [if_neg (not_or.2 ⟨hslash, hempty⟩)]
      split
      · rename_i hlast
        -- the slash at the end of the other text ends its last piece
        obtain ⟨front, hfront⟩ := List.getLast?_eq_some_iff.1 hlast
        have habove : above = String.ofList front ++ "/" ++ "" := by
          rw [← String.toList_inj, hfront]
          simp
        refine eq_of_parts (startOf_append (.inr hslash)) ?_
        show (ofString (above ++ text)).parts = (ofString above).parts ++ (ofString text).parts
        have htext : above ++ text = String.ofList front ++ "/" ++ text := by
          rw [habove, String.append_empty]
        have hnone : (ofString "").parts = [] := rfl
        rw [htext, habove, parts_ofString_slash, parts_ofString_slash, hnone, List.append_nil]
      · rename_i hlast
        refine eq_of_parts ?_ ?_
        · show startOf (above ++ "/" ++ text) = startOf above
          rw [String.append_assoc]
          refine startOf_append (.inl ?_)
          have hne : above.toList ≠ [] := fun h => hempty (String.toList_inj.1 h)
          rw [List.getLast?_eq_some_getLast hne, Option.some_inj] at hlast
          exact ⟨_, List.getLast_mem hne, hlast⟩
        · exact parts_ofString_slash above text

/-! ### Normalised texts -/

/-- The pieces of an absolute text are normalised by taking out `..`, as there is nothing above the top. -/
theorem foldl_normalStep_absolute (texts : List String) {parts : List String} (h : ".." ∉ parts) :
    texts.foldl (normalStep true) parts
      = (texts.filter fun piece => piece ≠ "" ∧ piece ≠ ".").foldl collapseStep parts := by
  induction texts generalizing parts with
  | nil => rfl
  | cons piece texts ih =>
    rw [List.foldl_cons, normalStep]
    by_cases hdropped : piece = "" ∨ piece = "."
    · rw [if_pos hdropped, ih h, List.filter_cons_of_neg]
      rw [decide_eq_true_eq, ← not_or]
      exact not_not_intro hdropped
    · have hcounts : (piece :: texts).filter (fun piece => piece ≠ "" ∧ piece ≠ ".")
          = piece :: texts.filter fun piece => piece ≠ "" ∧ piece ≠ "." :=
        List.filter_cons_of_pos (decide_eq_true (not_or.1 hdropped))
      rw [if_neg hdropped, hcounts, List.foldl_cons, collapseStep]
      by_cases hparent : piece = ".."
      · have hstays : ¬ (parts.getLast? = some ".." ∨ (parts = [] ∧ true = false)) := by
          rintro (hlast | ⟨-, hfalse⟩)
          · exact h (List.mem_of_getLast? hlast)
          · cases hfalse
        rw [if_pos hparent, if_neg hstays, if_pos hparent]
        exact ih fun hmem => h ((List.dropLast_sublist _).subset hmem)
      · rw [if_neg hparent, if_neg hparent]
        refine ih fun hmem => ?_
        rcases List.mem_append.1 hmem with hmem | hmem
        · exact h hmem
        · exact hparent (List.mem_singleton.1 hmem).symm

theorem normalText_of_absolute {text : String} (h : startOf text ≠ .relative) :
    normalText text
      = rootText (startOf text) ++ String.intercalate "/" (collapse (ofString text).parts) := by
  have hstart : (startOf text != .relative) = true := bne_iff_ne.2 h
  have hslash : rootText (startOf text) ≠ "" := by
    cases hroot : startOf text with
    | relative => exact absurd hroot h
    | single => decide
    | double => decide
  rw [normalText, normalParts, hstart, foldl_normalStep_absolute _ List.not_mem_nil, ← parts_ofString]
  exact if_neg fun hempty => hslash (String.append_eq_empty_iff.1 hempty).1

theorem ofString_cwdText {cwd : List String} (h : ∀ part ∈ cwd, IsPart part) :
    (ofString (cwdText cwd)).root = .single ∧ (ofString (cwdText cwd)).parts = cwd :=
  ⟨startOf_written .single h, parts_written .single h⟩

/-- **The parts of an absolute text** are those that the path has from the top. -/
theorem namedPieces_absoluteText {cwd : List String} (h : ∀ part ∈ cwd, IsPart part) (text : String) :
    namedPieces (absoluteText cwd text) = absoluteParts cwd (ofString text) := by
  obtain ⟨hcwdRoot, hcwdParts⟩ := ofString_cwdText h
  have hjoined : (ofString (joinText (cwdText cwd) text)).root ≠ .relative ∧
      collapse (ofString (joinText (cwdText cwd) text)).parts = absoluteParts cwd (ofString text) := by
    rw [ofString_joinText]
    by_cases hroot : (ofString text).root = .relative
    · obtain ⟨hbelowRoot, hbelowParts⟩ := below_of_relative (ofString (cwdText cwd)) hroot
      rw [hbelowRoot, hbelowParts, hcwdRoot, hcwdParts, absoluteParts, hroot]
      exact ⟨PathRoot.noConfusion, rfl⟩
    · rw [below_of_absolute _ hroot]
      exact ⟨hroot, (absoluteParts_of_absolute cwd hroot).symm⟩
  rw [absoluteText, normalText_of_absolute hjoined.1, hjoined.2]
  exact namedPieces_written _ fun part hpart => isPart_of_mem_absoluteParts h _ hpart

/-- The last character of joined parts is no slash. -/
theorem getLast?_intercalate {parts : List String} (h : ∀ part ∈ parts, IsPart part) :
    (String.intercalate "/" parts).toList.getLast? ≠ some '/' := by
  rcases List.eq_nil_or_concat parts with rfl | ⟨front, last, rfl⟩
  · exact Option.some_ne_none _ ∘ Eq.symm
  · rw [List.concat_eq_append] at h ⊢
    have hlast := h last (by simp)
    have hend : last.toList.getLast? ≠ some '/' := fun hslash =>
      hlast.slash_not_mem (List.mem_of_getLast? hslash)
    by_cases hfront : front = []
    · rw [hfront, List.nil_append, String.intercalate_singleton]
      exact hend
    · rw [String.intercalate_append_of_ne_nil hfront (List.cons_ne_nil _ _),
        String.intercalate_singleton, String.toList_append, List.getLast?_append_of_ne_nil _ hlast.ne_nil]
      exact hend

theorem intercalate_ne_empty {parts : List String} (hne : parts ≠ [])
    (h : ∀ part ∈ parts, IsPart part) : String.intercalate "/" parts ≠ "" := by
  intro hempty
  have hpieces := pieces_intercalate hne fun part hpart => (h part hpart).slash_not_mem
  rw [hempty] at hpieces
  exact (h "" (by rw [← hpieces]; exact List.mem_singleton_self _)).ne_nil rfl

theorem foldl_joinText {parts : List String} (h : ∀ part ∈ parts, IsPart part) :
    parts.foldl joinText "" = String.intercalate "/" parts := by
  induction parts using List.reverseRecOn with
  | nil => rfl
  | append_singleton parts last ih =>
    have hparts : ∀ part ∈ parts, IsPart part := fun part hpart => h part (List.mem_append_left _ hpart)
    have hlast := h last (by simp)
    have hhead : last.toList.head? ≠ some '/' := fun hslash =>
      hlast.slash_not_mem (List.mem_of_head? hslash)
    rw [List.foldl_append, ih hparts]
    show joinText (String.intercalate "/" parts) last = _
    rw [joinText]
    by_cases hnil : parts = []
    · rw [hnil, if_pos (.inr rfl), List.nil_append, String.intercalate_singleton]
    · rw [if_neg (not_or.2 ⟨hhead, intercalate_ne_empty hnil hparts⟩), if_neg (getLast?_intercalate hparts),
        String.intercalate_append_of_ne_nil hnil (List.cons_ne_nil _ _), String.intercalate_singleton]

/-- The way between two texts, written. -/
theorem relativeText_eq {cwd : List String} (h : ∀ part ∈ cwd, IsPart part) (text base : String) :
    relativeText cwd text base = joinParts
      (relativeParts (absoluteParts cwd (ofString base)) (absoluteParts cwd (ofString text))) := by
  rw [relativeText, namedPieces_absoluteText h, namedPieces_absoluteText h, joinParts]
  split
  · rfl
  · exact foldl_joinText fun part hpart =>
      isPart_of_mem_relativeParts (fun _ => isPart_of_mem_absoluteParts h _) hpart

/-- Ways up stay when a relative text is normalised, and so does what comes after them. -/
theorem foldl_normalStep_relative (n : Nat) {down : List String} (h : ∀ part ∈ down, IsPart part)
    (hdown : ".." ∉ down) :
    (List.replicate n ".." ++ down).foldl (normalStep false) [] = List.replicate n ".." ++ down := by
  induction down using List.reverseRecOn with
  | nil =>
    rw [List.append_nil]
    induction n with
    | zero => rfl
    | succ n ih =>
      rw [List.replicate_succ', List.foldl_append, ih]
      show normalStep false (List.replicate n "..") ".." = _
      rw [normalStep, if_neg (by decide), if_pos rfl, if_pos]
      cases n with
      | zero => exact .inr ⟨rfl, rfl⟩
      | succ n =>
        rw [List.replicate_succ', List.getLast?_concat]
        exact .inl rfl
  | append_singleton down last ih =>
    have hlast := h last (by simp)
    have hparent : last ≠ ".." := fun heq => hdown (by rw [heq]; simp)
    have hdropped : ¬ (last = "" ∨ last = ".") := by
      rintro (rfl | rfl)
      · exact hlast.ne_nil rfl
      · exact hlast.ne_point rfl
    rw [← List.append_assoc, List.foldl_append, ih (fun part hpart => h part (List.mem_append_left _ hpart))
      fun hmem => hdown (List.mem_append_left _ hmem)]
    show normalStep false (List.replicate n ".." ++ down) last = _
    rw [normalStep, if_neg hdropped, if_neg hparent]

/-- Ways up with parts after them are normalised already. -/
theorem normalText_joinParts (n : Nat) {down : List String} (h : ∀ part ∈ down, IsPart part)
    (hdown : ".." ∉ down) :
    normalText (joinParts (List.replicate n ".." ++ down)) = joinParts (List.replicate n ".." ++ down) := by
  have hparts : ∀ part ∈ List.replicate n ".." ++ down, IsPart part := by
    intro part hpart
    rcases List.mem_append.1 hpart with hpart | hpart
    · rw [List.eq_of_mem_replicate hpart]
      exact isPart_parent
    · exact h part hpart
  by_cases hne : List.replicate n ".." ++ down = []
  · rw [hne]
    decide
  · have hstart := startOf_written .relative hparts
    rw [rootText, String.empty_append] at hstart
    have hnormal : normalParts (String.intercalate "/" (List.replicate n ".." ++ down))
        = List.replicate n ".." ++ down := by
      rw [normalParts, hstart, pieces_intercalate hne fun part hpart => (hparts part hpart).slash_not_mem]
      exact foldl_normalStep_relative n h hdown
    rw [joinParts, if_neg hne, normalText, hnormal, hstart, rootText, String.empty_append]
    exact if_neg (intercalate_ne_empty hne hparts)

/-- **The key of a checked name**, computed on texts. -/
theorem key_eq_normalText {cwd : List String} (h : ∀ part ∈ cwd, IsPart part) (root path : PathName) :
    key cwd root path = normalText (relativeText cwd path.render root.render) := by
  rw [relativeText_eq h, ofString_render, ofString_render, key]
  obtain ⟨shared, up, down, -, htarget, hway⟩ :=
    relativeParts_eq (absoluteParts cwd root) (absoluteParts cwd path)
  rw [hway, List.map_const']
  refine (normalText_joinParts up.length (fun part hpart => ?_) fun hmem => ?_).symm
  · refine isPart_of_mem_absoluteParts h path ?_
    rw [htarget]
    exact List.mem_append_right _ hpart
  · refine parent_not_mem_absoluteParts cwd path ?_
    rw [htarget]
    exact List.mem_append_right _ hmem

/-! ### Texts in a walk -/

theorem below_joinParts_nil (p : PathName) : p.below (joinParts []) = p :=
  eq_of_parts (below_joinParts_root p (List.forall_mem_nil _))
    ((below_joinParts_parts p (List.forall_mem_nil _)).trans (List.append_nil _))

/-- A name below joined parts is that of the parts with it. -/
theorem below_joinParts_below (p : PathName) {parts : List String} {name : String}
    (h : ∀ part ∈ parts ++ [name], IsPart part) :
    (p.below (joinParts parts)).below name = p.below (joinParts (parts ++ [name])) := by
  have hparts : ∀ part ∈ parts, IsPart part := fun part hpart => h part (List.mem_append_left _ hpart)
  have hname : ∀ part ∈ [name], IsPart part := fun part hpart => h part (List.mem_append_right _ hpart)
  have hone : joinParts [name] = name := by
    rw [joinParts, if_neg (List.cons_ne_nil _ _), String.intercalate_singleton]
  have hroot := below_joinParts_root (p.below (joinParts parts)) hname
  have hbelow := below_joinParts_parts (p.below (joinParts parts)) hname
  rw [hone] at hroot hbelow
  refine eq_of_parts ?_ ?_
  · rw [hroot, below_joinParts_root _ hparts, below_joinParts_root _ h]
  · rw [hbelow, below_joinParts_parts _ hparts, below_joinParts_parts _ h, List.append_assoc]

/-- The text by which a walk enters a directory denotes it. -/
theorem ofString_walkText (root : PathName) {directories : List String}
    (h : ∀ part ∈ directories, IsPart part) :
    ofString (walkText root directories) = root.below (joinParts directories) := by
  induction directories using List.reverseRecOn with
  | nil => exact (ofString_render root).trans (below_joinParts_nil root).symm
  | append_singleton directories last ih =>
    rw [walkText, List.foldl_append]
    show ofString (joinText (walkText root directories) last) = _
    rw [ofString_joinText, ih fun part hpart => h part (List.mem_append_left _ hpart),
      below_joinParts_below root h]

theorem render_of_relative {p : PathName} (h : p.root = .relative) : p.render = joinParts p.parts := by
  rw [render, joinParts, h, rootText, String.empty_append]
  simp only [true_and]

/-- **The key of a file that a walk meets**, computed on texts. -/
theorem walkKey?_eq (root : PathName) {directories : List String} {name : String}
    (h : ∀ part ∈ directories ++ [name], IsPart part) (hup : ".." ∉ directories ++ [name]) :
    walkKey? root directories name = some (joinParts (directories ++ [name])) := by
  have hparts := below_joinParts_parts root h
  rw [walkKey?, ofString_walkText root fun part hpart => h part (List.mem_append_left _ hpart),
    below_joinParts_below root h, relativeTo?,
    if_pos ⟨below_joinParts_root root h, by rw [hparts]; exact List.prefix_append ..⟩, Option.map_some,
    Option.some_inj, render_of_relative rfl]
  show normalText (joinParts ((root.below (joinParts (directories ++ [name]))).parts.drop root.parts.length))
    = _
  rw [hparts, List.drop_left]
  exact normalText_joinParts 0 h hup

end MigrationBench.PathName
