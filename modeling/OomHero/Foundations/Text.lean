import Mathlib.Data.List.DropRight
import Mathlib.Tactic

/-!
# Foundations - Text

Splitting text at a separator, at whitespace and into lines, with the behaviour
the standard library of Rust documents: whitespace is the Unicode property
{lit}`White_Space`, lines end at a line feed with an optional carriage return
before it, and a final line without a line feed counts when it is not empty.

Main results:

- Theorem {lit}`splitOn_eq_iff`: a text splits into pieces at a separator exactly
  when it joins them and none of them has the separator in it.
- Theorem {lit}`words_row`: the words of a row of tokens with gaps between them
  are the tokens, whatever the gaps are.
- Theorem {lit}`words_lines_join`: the words of joined lines are those of the
  lines, apart from blank lines.
-/

namespace OomHero
namespace Text

/-- The Unicode property {lit}`White_Space`. -/
def isWhitespace (c : Char) : Bool :=
  let n := c.toNat
  (9 ≤ n && n ≤ 13) || n = 0x20 || n = 0x85 || n = 0xA0 || n = 0x1680 ||
    (0x2000 ≤ n && n ≤ 0x200A) || n = 0x2028 || n = 0x2029 || n = 0x202F || n = 0x205F ||
    n = 0x3000

/-! ## Splitting at a separator -/

/-- The pieces of a text between the occurrences of a separator. -/
def splitOn (sep : Char) (s : String) : List String :=
  (s.toList.splitOn sep).map String.ofList

/-- No piece contains the separator. -/
theorem notMem_of_mem_splitOn {α : Type} [DecidableEq α] {a : α} {xs piece : List α}
    (h : piece ∈ xs.splitOn a) : a ∉ piece := by
  induction xs generalizing piece with
  | nil =>
      have hnil : piece = [] := by simpa using h
      simp [hnil]
  | cons x xs ih =>
      rw [List.splitOn_cons_eq_if_modifyHead] at h
      split at h <;> rename_i hx
      · rcases List.mem_cons.mp h with rfl | htail
        · simp
        · exact ih htail
      · rcases List.exists_cons_of_ne_nil (List.splitOn_ne_nil a xs) with ⟨first, rest, hsplit⟩
        rw [hsplit, List.modifyHead_cons] at h
        rw [hsplit] at ih
        rcases List.mem_cons.mp h with rfl | htail
        · have hne : a ≠ x := fun h' => hx (by simp [h'])
          have hfirst : a ∉ first := ih (by simp)
          simp [hne, hfirst]
        · exact ih (by simp [htail])

/-- A list splits into pieces exactly when it joins them and no piece has the
separator in it. -/
theorem list_splitOn_eq_iff {α : Type} [DecidableEq α] (a : α) (xs : List α)
    {pieces : List (List α)} (hne : pieces ≠ []) :
    xs.splitOn a = pieces ↔ xs = [a].intercalate pieces ∧ ∀ piece ∈ pieces, a ∉ piece := by
  constructor
  · rintro rfl
    exact ⟨(List.intercalate_splitOn a).symm, fun _ => notMem_of_mem_splitOn⟩
  · rintro ⟨rfl, hpieces⟩
    exact List.splitOn_intercalate a hpieces hne

/-- A text splits into pieces exactly when it joins them and no piece has the
separator in it. -/
theorem splitOn_eq_iff (sep : Char) (s : String) {pieces : List String} (hne : pieces ≠ []) :
    splitOn sep s = pieces ↔
      s.toList = [sep].intercalate (pieces.map String.toList) ∧
        ∀ piece ∈ pieces, sep ∉ piece.toList := by
  have hlists : splitOn sep s = pieces ↔ s.toList.splitOn sep = pieces.map String.toList := by
    unfold splitOn
    constructor
    · rintro rfl
      simp [Function.comp_def]
    · intro h
      rw [h]
      simp [Function.comp_def]
  rw [hlists, list_splitOn_eq_iff sep _ (by simpa using hne)]
  simp

/-- A text splits in two pieces exactly at a separator that occurs once. -/
theorem splitOn_eq_pair_iff (sep : Char) (s k v : String) :
    splitOn sep s = [k, v] ↔
      s = k ++ String.singleton sep ++ v ∧ sep ∉ k.toList ∧ sep ∉ v.toList := by
  rw [splitOn_eq_iff sep s (by simp), ← String.toList_inj]
  simp

/-! ## Splitting at whitespace -/

/-- The maximal runs of characters that are not whitespace. -/
def words (cs : List Char) : List (List Char) :=
  (cs.splitOnP isWhitespace).filter fun w => !w.isEmpty

/-- The words of a text, as {lit}`split_whitespace` yields them. -/
def splitWhitespace (s : String) : List String :=
  (words s.toList).map String.ofList

/-- Only whitespace. -/
def Blank (cs : List Char) : Prop :=
  ∀ c ∈ cs, isWhitespace c = true

instance (cs : List Char) : Decidable (Blank cs) :=
  List.decidableBAll _ cs

/-- A nonempty run of characters that are not whitespace. -/
structure Token (cs : List Char) : Prop where
  ne_nil : cs ≠ []
  solid : ∀ c ∈ cs, isWhitespace c = false

instance (cs : List Char) : Decidable (Token cs) :=
  have : Decidable (∀ c ∈ cs, isWhitespace c = false) := List.decidableBAll _ cs
  decidable_of_iff (cs ≠ [] ∧ ∀ c ∈ cs, isWhitespace c = false)
    ⟨fun h => ⟨h.1, h.2⟩, fun h => ⟨h.ne_nil, h.solid⟩⟩

@[simp]
theorem words_nil : words [] = [] :=
  rfl

/-- Whitespace separates words. -/
theorem words_append_cons (xs ys : List Char) {c : Char} (hc : isWhitespace c = true) :
    words (xs ++ c :: ys) = words xs ++ words ys := by
  unfold words
  rw [List.splitOnP_append_cons xs ys hc, List.filter_append]

/-- Leading whitespace contributes no words. -/
theorem words_blank_append {gap : List Char} (hgap : Blank gap) (cs : List Char) :
    words (gap ++ cs) = words cs := by
  induction gap with
  | nil => rfl
  | cons c gap ih =>
      have hc : isWhitespace c = true := hgap c (by simp)
      have hrest := words_append_cons [] (gap ++ cs) hc
      rw [List.cons_append, ← List.nil_append (c :: (gap ++ cs)), hrest]
      exact ih fun d hd => hgap d (by simp [hd])

/-- A blank text has no words. -/
theorem words_blank {gap : List Char} (hgap : Blank gap) : words gap = [] := by
  simpa using words_blank_append hgap []

/-- Trailing whitespace contributes no words. -/
theorem words_append_blank {gap : List Char} (hgap : Blank gap) (cs : List Char) :
    words (cs ++ gap) = words cs := by
  cases gap with
  | nil => simp
  | cons c gap =>
      have hrest : Blank gap := fun d hd => hgap d (by simp [hd])
      rw [words_append_cons cs gap (hgap c (by simp)), words_blank hrest, List.append_nil]

/-- A token is its only word. -/
theorem words_token {tok : List Char} (htok : Token tok) : words tok = [tok] := by
  unfold words
  rw [List.splitOnP_eq_singleton htok.solid]
  simp [htok.ne_nil]

/-- The words of a token, a nonempty gap and a rest. -/
theorem words_token_gap {tok gap : List Char} (htok : Token tok) (hgap : Blank gap)
    (hne : gap ≠ []) (cs : List Char) : words (tok ++ (gap ++ cs)) = tok :: words cs := by
  rcases List.exists_cons_of_ne_nil hne with ⟨c, gap', rfl⟩
  have hrest : Blank gap' := fun d hd => hgap d (by simp [hd])
  rw [List.cons_append, words_append_cons tok _ (hgap c (by simp)), words_token htok,
    words_blank_append hrest]
  rfl

/-- The words of a row: its first token and the tokens behind each gap. -/
theorem words_row {first lead trail : List Char} {rest : List (List Char × List Char)}
    (hlead : Blank lead) (hfirst : Token first) (htrail : Blank trail)
    (hrest : ∀ e ∈ rest, Blank e.1 ∧ e.1 ≠ [] ∧ Token e.2) :
    words (lead ++ (first ++ (rest.flatMap (fun e => e.1 ++ e.2) ++ trail))) =
      first :: rest.map Prod.snd := by
  rw [words_blank_append hlead]
  induction rest generalizing first with
  | nil =>
      rw [List.flatMap_nil, List.nil_append, words_append_blank htrail, words_token hfirst]
      rfl
  | cons e rest ih =>
      rcases hrest e (by simp) with ⟨hgap, hne, htok⟩
      have htail := ih htok fun d hd => hrest d (by simp [hd])
      rw [List.flatMap_cons, List.append_assoc, List.append_assoc,
        words_token_gap hfirst hgap hne, htail]
      rfl

/-! ## Trimming -/

/-- A text without its leading and trailing whitespace. -/
def trim (s : String) : String :=
  String.ofList ((s.toList.dropWhile isWhitespace).rdropWhile isWhitespace)

/-- Trimming a padded token leaves the token. -/
theorem trim_padded {lead tok trail : String} (hlead : Blank lead.toList)
    (htok : Token tok.toList) (htrail : Blank trail.toList) :
    trim (lead ++ tok ++ trail) = tok := by
  rcases List.exists_cons_of_ne_nil htok.ne_nil with ⟨c, cs, hcs⟩
  have hc : isWhitespace c = false := htok.solid c (by simp [hcs])
  have hdrop : (lead.toList ++ tok.toList ++ trail.toList).dropWhile isWhitespace =
      tok.toList ++ trail.toList := by
    rw [List.append_assoc, List.dropWhile_append_of_pos hlead, hcs, List.cons_append,
      List.dropWhile_cons_of_neg (by simp [hc])]
  have hrdrop : (tok.toList ++ trail.toList).rdropWhile isWhitespace = tok.toList := by
    unfold List.rdropWhile
    rw [List.reverse_append, List.dropWhile_append_of_pos (by simpa [Blank] using htrail)]
    cases hrev : tok.toList.reverse with
    | nil => simpa using hrev
    | cons d ds =>
        have hd : isWhitespace d = false := by
          apply htok.solid d
          rw [← List.mem_reverse, hrev]
          simp
        rw [List.dropWhile_cons_of_neg (by simp [hd]), ← hrev, List.reverse_reverse]
  unfold trim
  rw [String.toList_append, String.toList_append, hdrop, hrdrop, String.ofList_toList]

/-! ## Lines -/

/-- Drop the carriage return of a line end. -/
def stripCr (cs : List Char) : List Char :=
  if cs.getLast? = some '\r' then cs.dropLast else cs

/-- The lines of a list of characters. -/
def charLines (cs : List Char) : List (List Char) :=
  let pieces := cs.splitOn '\n'
  pieces.dropLast.map stripCr ++ pieces.getLast?.toList.filter fun last => !last.isEmpty

/-- The lines of a text, as {lit}`BufRead::lines` yields them. -/
def lines (s : String) : List String :=
  (charLines s.toList).map String.ofList

/-- A carriage return is whitespace, so stripping it changes no word. -/
theorem words_stripCr (cs : List Char) : words (stripCr cs) = words cs := by
  unfold stripCr
  split <;> rename_i hlast
  · have hsplit : cs = cs.dropLast ++ ['\r'] := (List.dropLast_append_getLast? _ hlast).symm
    have hblank : Blank ['\r'] := by
      intro c hc
      obtain rfl : c = '\r' := by simpa using hc
      rfl
    conv_rhs => rw [hsplit]
    rw [words_append_blank hblank]
  · rfl

/-- Lists of words, without the empty ones. -/
def rows (liness : List (List Char)) : List (List (List Char)) :=
  (liness.map words).filter fun row => !row.isEmpty

@[simp]
theorem rows_append (xs ys : List (List Char)) : rows (xs ++ ys) = rows xs ++ rows ys := by
  simp [rows]

/-- Blank lines give no row. -/
theorem rows_blank {xs : List (List Char)} (h : ∀ x ∈ xs, Blank x) : rows xs = [] := by
  unfold rows
  rw [List.filter_eq_nil_iff]
  intro row hrow
  rcases List.mem_map.mp hrow with ⟨x, hx, rfl⟩
  simp [words_blank (h x hx)]

/-- A line with words is one row. -/
theorem rows_singleton {x w : List Char} {ws : List (List Char)} (h : words x = w :: ws) :
    rows [x] = [w :: ws] := by
  simp [rows, h]

/-- The rows of joined lines are those of the lines. -/
theorem words_lines_join {pieces : List (List Char)} (hne : pieces ≠ [])
    (hline : ∀ piece ∈ pieces, '\n' ∉ piece) :
    rows (charLines (['\n'].intercalate pieces)) = rows pieces := by
  have hsplit : (['\n'].intercalate pieces).splitOn '\n' = pieces :=
    List.splitOn_intercalate '\n' hline hne
  have hstrip : ∀ xs : List (List Char), rows (xs.map stripCr) = rows xs := by
    intro xs
    unfold rows
    rw [List.map_map]
    congr 1
    exact List.map_congr_left fun x _ => words_stripCr x
  unfold charLines
  simp only [hsplit, rows_append, hstrip]
  have hlast : pieces = pieces.dropLast ++ [pieces.getLast hne] :=
    (List.dropLast_append_getLast hne).symm
  conv_rhs => rw [hlast, rows_append]
  congr 1
  rw [List.getLast?_eq_getLast_of_ne_nil hne]
  by_cases hempty : pieces.getLast hne = []
  · simp [hempty, rows]
  · simp [hempty]

end Text
end OomHero
