import Mathlib.Data.List.Forall2
import Sentential.Proofs.Enumeration
import Sentential.Proofs.Rederivation

/-!
# What a printed table tells

The fields of a printed table are words of letters, so cutting the text at line feeds and tabulators
gives them back. A row prints the values of its bindings and its result as keywords, and the first
line prints the names. So the text tells the names and the rows. The dictionaries of the rows tell
them as well: since a table binds no name twice, none of its bindings is lost.
-/
namespace Sentential

namespace TruthTable

variable {e f : String} {limit limit' : Option Int} {t u : TruthTable}

/-! ## Fields -/

/-- The lines of a text, each cut into its fields. -/
def fieldsOf (s : List Char) : List (List (List Char)) := (s.splitOn '\n').map (List.splitOn '\t')

theorem not_mem_intercalate {c d : Char} (hcd : c ≠ d) {parts : List (List Char)}
    (h : ∀ part ∈ parts, c ∉ part) : c ∉ List.intercalate [d] parts := by
  induction parts with
  | nil => simp [List.intercalate]
  | cons s parts ih =>
    obtain ⟨hs, hparts⟩ := List.forall_mem_cons.mp h
    cases parts with
    | nil => rwa [List.intercalate_singleton]
    | cons s' parts =>
      rw [List.intercalate_cons_cons]
      simp [hs, hcd, ih hparts]

/-- Cutting undoes joining if no field holds a separator. -/
theorem fieldsOf_intercalate {lines : List (List (List Char))} (hne : lines ≠ [])
    (hfields : ∀ line ∈ lines, line ≠ [])
    (h : ∀ line ∈ lines, ∀ field ∈ line, '\n' ∉ field ∧ '\t' ∉ field) :
    fieldsOf (List.intercalate ['\n'] (lines.map (List.intercalate ['\t']))) = lines := by
  have hlines : ∀ line ∈ lines.map (List.intercalate ['\t']), '\n' ∉ line :=
    List.forall_mem_map.mpr fun line hline =>
      not_mem_intercalate (by decide) fun field hfield => (h line hline field hfield).1
  rw [fieldsOf, List.splitOn_intercalate '\n' hlines (by simpa using hne), List.map_map]
  refine (List.map_congr_left fun line hline => ?_).trans (List.map_id lines)
  exact List.splitOn_intercalate '\t' (fun field hfield => (h line hline field hfield).2)
    (hfields line hline)

theorem not_mem_of_letters {field : List Char} (h : ∀ c ∈ field, isAsciiLetter c) :
    '\n' ∉ field ∧ '\t' ∉ field :=
  ⟨fun hc => absurd (h _ hc) (by decide), fun hc => absurd (h _ hc) (by decide)⟩

theorem isAsciiLetter_of_mem_keyword {value : Bool} {c : Char} (h : c ∈ keyword value) :
    isAsciiLetter c := by
  rw [isAsciiLetter, isLowerLetter_of_mem_keyword h, Bool.true_or]

theorem isAsciiLetter_of_mem_cells {r : Row} {field : List Char} (h : field ∈ cells r) :
    ∀ c ∈ field, isAsciiLetter c := by
  rcases List.mem_append.mp h with h | h
  · obtain ⟨b, -, rfl⟩ := List.mem_map.mp h
    exact fun c => isAsciiLetter_of_mem_keyword
  · rw [List.mem_singleton.mp h]
    exact fun c => isAsciiLetter_of_mem_keyword

theorem isAsciiLetter_of_mem_headCells (h : build e limit = .ok t) {field : List Char}
    (hfield : field ∈ t.headCells) : ∀ c ∈ field, isAsciiLetter c := by
  rcases List.mem_append.mp hfield with hfield | hfield
  · obtain ⟨name, hname, rfl⟩ := List.mem_map.mp hfield
    rw [names_of_build h] at hname
    obtain ⟨v, -, hv, rfl⟩ := mem_variablesOf.mp hname
    intro c hc
    rw [Char.toList_toString] at hc
    rw [List.mem_singleton.mp hc, isAsciiLetter, (Expression.isVariable_iff.mp hv).1, Bool.or_true]
  · rw [List.mem_singleton.mp hfield]
    have hall : "Result".toList.all isAsciiLetter = true := by rfl
    exact fun c => List.all_eq_true.mp hall c

theorem fieldsOf_format (h : build e limit = .ok t) :
    fieldsOf t.format.toList = t.headCells :: t.rows.map cells := by
  rw [format, String.toList_ofList]
  refine fieldsOf_intercalate (List.cons_ne_nil _ _) ?_ ?_
  · refine List.forall_mem_cons.mpr ⟨by simp [headCells], List.forall_mem_map.mpr fun r _ => ?_⟩
    simp [cells]
  · refine List.forall_mem_cons.mpr ⟨fun field hfield => ?_,
      List.forall_mem_map.mpr fun r _ field hfield => ?_⟩
    · exact not_mem_of_letters (isAsciiLetter_of_mem_headCells h hfield)
    · exact not_mem_of_letters (isAsciiLetter_of_mem_cells hfield)

/-! ## What the fields of a row tell -/

theorem map_truthValue?_keyword (values : List Bool) :
    (values.map keyword).map truthValue? = values.map some := by
  rw [List.map_map]
  exact List.map_congr_left fun value _ => truthValue?_keyword value

theorem cells_eq (r : Row) : cells r = (r.bindings.map Prod.snd ++ [r.result]).map keyword := by
  rw [cells, List.map_append, List.map_map]
  rfl

theorem keyword_injective : Function.Injective keyword := by
  intro a b h
  have hvalue := congrArg truthValue? h
  rw [truthValue?_keyword, truthValue?_keyword] at hvalue
  exact Option.some.inj hvalue

theorem eq_of_cells_eq {r q : Row} (hnames : r.bindings.map Prod.fst = q.bindings.map Prod.fst)
    (h : cells r = cells q) : r = q := by
  rw [cells_eq, cells_eq] at h
  obtain ⟨hvalues, hresult⟩ := List.append_inj' (keyword_injective.list_map h) rfl
  have hbindings : r.bindings = q.bindings := by
    rw [← List.zip_unzip r.bindings, ← List.zip_unzip q.bindings, List.unzip_fst, List.unzip_fst,
      List.unzip_snd, List.unzip_snd, hnames, hvalues]
  obtain ⟨bindings, result⟩ := r
  rw [Row.mk.injEq]
  exact ⟨hbindings, (List.cons.inj hresult).1⟩

theorem format_eq_iff (ht : build e limit = .ok t) (hu : build f limit' = .ok u) :
    t.format = u.format ↔ t.names = u.names ∧ t.rows = u.rows := by
  constructor
  · intro h
    have hlines : t.headCells :: t.rows.map cells = u.headCells :: u.rows.map cells := by
      rw [← fieldsOf_format ht, ← fieldsOf_format hu, h]
    obtain ⟨hhead, hcells⟩ := List.cons.inj hlines
    have htoList : Function.Injective String.toList := fun _ _ h => String.toList_inj.mp h
    have hnames : t.names = u.names := htoList.list_map (List.append_cancel_right hhead)
    have hlength : t.rows.length = u.rows.length := by simpa using congrArg List.length hcells
    refine ⟨hnames, List.ext_getElem hlength fun i hi hi' => ?_⟩
    have hcell := List.getElem_of_eq hcells (by simpa using hi : i < (t.rows.map cells).length)
    rw [List.getElem_map, List.getElem_map] at hcell
    refine eq_of_cells_eq ?_ hcell
    rw [map_fst_bindings_of_build ht _ (List.getElem_mem hi),
      map_fst_bindings_of_build hu _ (List.getElem_mem hi'), ← names_of_build ht,
      ← names_of_build hu, hnames]
  · rintro ⟨hnames, hrows⟩
    simp only [format, printedLines, headCells, hnames, hrows]

end TruthTable

/-! ## Dictionaries -/

/-- The dictionaries of two rows have the same entries, and the rows have the same result. -/
structure Row.SameDictionary (r q : Row) : Prop where
  lookup : ∀ name, r.assignment.lookup name = q.assignment.lookup name
  result : r.result = q.result

namespace Assignment

theorem map_valuation {a : Assignment} (h : (a.map Prod.fst).Nodup) :
    (a.map Prod.fst).map (fun name => (name, a.valuation name)) = a := by
  rw [List.map_map]
  refine (List.map_congr_left fun entry hentry => ?_).trans (List.map_id a)
  exact Prod.ext rfl (valuation_eq h hentry)

theorem eq_of_lookup_eq {a b : Assignment} (hnodup : (a.map Prod.fst).Nodup)
    (hnames : a.map Prod.fst = b.map Prod.fst) (h : ∀ name, a.lookup name = b.lookup name) :
    a = b := by
  have hvaluation : a.valuation = b.valuation := by
    funext name
    rw [valuation, valuation, h name]
  calc
    a = (a.map Prod.fst).map (fun name => (name, a.valuation name)) := (map_valuation hnodup).symm
    _ = (b.map Prod.fst).map (fun name => (name, b.valuation name)) := by rw [hnames, hvaluation]
    _ = b := map_valuation (hnames ▸ hnodup)

end Assignment

namespace TruthTable

variable {e f : String} {limit limit' : Option Int} {t u : TruthTable}

theorem isSome_lookup_iff (h : build e limit = .ok t) {r : Row} (hr : r ∈ t.rows)
    {name : String} : (r.assignment.lookup name).isSome ↔ name ∈ variablesOf e := by
  rw [assignment_of_build h r hr, ← map_fst_bindings_of_build h r hr, List.lookup_isSome_iff,
    List.mem_map]
  exact exists_congr fun b => and_congr_right fun _ => beq_iff_eq.trans eq_comm

theorem exists_row_of_build (h : build e limit = .ok t) : ∃ r rest, t.rows = r :: rest := by
  refine List.exists_cons_of_length_pos ?_
  rw [(enumerates_of_build h).length]
  exact Nat.two_pow_pos _

theorem mem_freeVariables_iff_toString {v : Char} :
    v ∈ Expression.freeVariables e.toList ↔ v.toString ∈ variablesOf e :=
  (List.mem_map_of_injective Char.toString_injective).symm

/-- The dictionary of a single row already tells the variables. -/
theorem variablesOf_eq_of_sameDictionary (ht : build e limit = .ok t)
    (hu : build f limit' = .ok u) {r q : Row} (hr : r ∈ t.rows) (hq : q ∈ u.rows)
    (h : r.SameDictionary q) : variablesOf e = variablesOf f := by
  refine congrArg (List.map Char.toString) (Expression.freeVariables_ext fun v => ?_)
  rw [mem_freeVariables_iff_toString, mem_freeVariables_iff_toString, ← isSome_lookup_iff ht hr,
    ← isSome_lookup_iff hu hq, h.lookup]

theorem eq_of_sameDictionary (ht : build e limit = .ok t) (hu : build f limit' = .ok u)
    {r q : Row} (hr : r ∈ t.rows) (hq : q ∈ u.rows) (h : r.SameDictionary q) : r = q := by
  have hnames : r.bindings.map Prod.fst = q.bindings.map Prod.fst := by
    rw [map_fst_bindings_of_build ht r hr, map_fst_bindings_of_build hu q hq,
      variablesOf_eq_of_sameDictionary ht hu hr hq h]
  have hnodup : (r.bindings.map Prod.fst).Nodup := by
    rw [map_fst_bindings_of_build ht r hr]
    exact nodup_variablesOf e
  have hlookup := h.lookup
  rw [assignment_of_build ht r hr, assignment_of_build hu q hq] at hlookup
  obtain ⟨bindings, result⟩ := r
  rw [Row.mk.injEq]
  exact ⟨Assignment.eq_of_lookup_eq hnodup hnames hlookup, h.result⟩

theorem forall₂_sameDictionary_iff (ht : build e limit = .ok t) (hu : build f limit' = .ok u) :
    List.Forall₂ Row.SameDictionary t.rows u.rows ↔ t.names = u.names ∧ t.rows = u.rows := by
  constructor
  · intro h
    have hrows : t.rows = u.rows := by
      refine List.ext_getElem h.length_eq fun i hi hi' => ?_
      exact eq_of_sameDictionary ht hu (List.getElem_mem hi) (List.getElem_mem hi') (h.get hi hi')
    obtain ⟨r, rest, hr⟩ := exists_row_of_build ht
    have hmem : r ∈ t.rows := hr ▸ List.mem_cons_self
    refine ⟨?_, hrows⟩
    rw [names_of_build ht, names_of_build hu, ← map_fst_bindings_of_build ht r hmem,
      ← map_fst_bindings_of_build hu r (hrows ▸ hmem)]
  · rintro ⟨-, hrows⟩
    rw [hrows]
    exact List.forall₂_same.mpr fun r _ => ⟨fun _ => rfl, rfl⟩

/-! ## The whole text -/

/-- The lines are the names and then, row for row, the values of its bindings and its result. -/
structure Printed (t : TruthTable) (lines : List (List (List Char))) : Prop where
  rows_length : t.rows.length = Nat.pow 2 t.names.length
  lines_length : lines.length = Nat.pow 2 t.names.length + 1
  width : ∀ line ∈ lines, line.length = t.names.length + 1
  head : lines.head? = some (t.names.map String.toList ++ ["Result".toList])
  row : ∀ i (h : i < t.rows.length), ∃ line values,
    lines[i + 1]? = some line ∧
      line.map truthValue? = (values ++ [t.rows[i].result]).map some ∧
        t.rows[i].bindings = t.names.zip values ∧ t.rows[i].assignment = t.names.zip values

theorem bindings_eq_zip (h : build e limit = .ok t) {r : Row} (hr : r ∈ t.rows) :
    r.bindings = t.names.zip (r.bindings.map Prod.snd) := by
  rw [names_of_build h, ← map_fst_bindings_of_build h r hr, ← List.unzip_fst, ← List.unzip_snd,
    List.zip_unzip]

theorem printed_of_build (h : build e limit = .ok t) : t.Printed (fieldsOf t.format.toList) := by
  have hlength := (enumerates_of_build h).length
  rw [fieldsOf_format h]
  refine ⟨hlength, ?_, ?_, rfl, fun i hi => ?_⟩
  · rw [List.length_cons, List.length_map, hlength]
  · refine List.forall_mem_cons.mpr ⟨by simp [headCells], List.forall_mem_map.mpr fun r hr => ?_⟩
    rw [names_of_build h, ← map_fst_bindings_of_build h r hr]
    simp [cells]
  · have hmem := List.getElem_mem hi
    have hzip := bindings_eq_zip h hmem
    refine ⟨cells t.rows[i], t.rows[i].bindings.map Prod.snd, by simp [hi], ?_, hzip, ?_⟩
    · rw [cells_eq, map_truthValue?_keyword]
    · rw [assignment_of_build h _ hmem]
      exact hzip

/-- The text of a table, cut into lines and fields, has a line for the names and one for each row,
whose fields read as the values of the row and its result. So two tables of expressions print alike
exactly if they have the same names and rows, and exactly if the dictionaries of their rows are the
same, one after the other. -/
theorem format_faithful (e : String) (limit : Option Int) (t : TruthTable)
    (h : build e limit = .ok t) :
    t.Printed (fieldsOf t.format.toList) ∧
    ∀ (f : String) (limit' : Option Int) (u : TruthTable), build f limit' = .ok u →
      (t.format = u.format ↔ t.names = u.names ∧ t.rows = u.rows) ∧
      (t.format = u.format ↔ List.Forall₂ Row.SameDictionary t.rows u.rows) := by
  refine ⟨printed_of_build h, fun f limit' u hu => ⟨format_eq_iff h hu, ?_⟩⟩
  rw [format_eq_iff h hu, forall₂_sameDictionary_iff h hu]

theorem format_faithful_implication :
    build "B → A" none = .ok ⟨"B → A", ["A", "B"],
        [⟨[("A", false), ("B", false)], true⟩, ⟨[("A", false), ("B", true)], false⟩,
          ⟨[("A", true), ("B", false)], true⟩, ⟨[("A", true), ("B", true)], true⟩]⟩ ∧
      ∃ t u, build "B → A" none = .ok t ∧ build "(A) ∨ ¬B" (some 2) = .ok u ∧
        t.Printed (fieldsOf t.format.toList) ∧ t.format = u.format ∧
          List.Forall₂ Row.SameDictionary t.rows u.rows := by
  have ht : build "B → A" none = .ok ⟨"B → A", ["A", "B"],
      [⟨[("A", false), ("B", false)], true⟩, ⟨[("A", false), ("B", true)], false⟩,
        ⟨[("A", true), ("B", false)], true⟩, ⟨[("A", true), ("B", true)], true⟩]⟩ := by rfl
  have hu : build "(A) ∨ ¬B" (some 2) = .ok ⟨"(A) ∨ ¬B", ["A", "B"],
      [⟨[("A", false), ("B", false)], true⟩, ⟨[("A", false), ("B", true)], false⟩,
        ⟨[("A", true), ("B", false)], true⟩, ⟨[("A", true), ("B", true)], true⟩]⟩ := by rfl
  obtain ⟨hprinted, hsame⟩ := format_faithful "B → A" none _ ht
  obtain ⟨hformat, hdictionaries⟩ := hsame _ _ _ hu
  have heq := hformat.mpr ⟨rfl, rfl⟩
  exact ⟨ht, _, _, ht, hu, hprinted, heq, hdictionaries.mp heq⟩

end TruthTable

end Sentential
