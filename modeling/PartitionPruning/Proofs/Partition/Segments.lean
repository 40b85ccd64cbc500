import PartitionPruning.Partition.Path
import PartitionPruning.Proofs.Outcome
import PartitionPruning.Proofs.Text.Percent

/-!
# Partition paths can be taken apart

A slash separates the segments of a path, and an equals sign the name from the value. Neither is among
the characters that names and values are written with, so a path tells what it was made of.

* **`parts_path`** — the segments of a path show the values of the partition, in the order of the spec.
-/

namespace PartitionPruning

open Outcome (bind_eq_ok getElem?_of_mapM mapM_eq_ok)

namespace Text

/-- The parts of a text between marks. There is one more of them than there are marks. -/
def parts (mark : Char) (s : String) : List String := (s.split mark).toList.map (·.copy)

/-- **Texts without a mark** are the parts of what they make up with the mark between them. -/
theorem parts_intercalate {mark : Char} {texts : List String} (hne : texts ≠ [])
    (h : ∀ s ∈ texts, mark ∉ s.toList) :
    parts mark ((String.singleton mark).intercalate texts) = texts := by
  rw [parts, String.toList_split_intercalate h, if_neg hne]

end Text

open Text (parts parts_intercalate)

namespace PartitionField

/-- Whether a text is a segment with a value of a partition field: it has one equals sign, in front of
which the name is encoded and behind it the text of the value. -/
def IsSegment (f : PartitionField) (type : DataType) (v : Value) (segment : String) : Prop :=
  segment.toList.count '=' = 1 ∧ ∃ name value text, parts '=' segment = [name, value] ∧
    Text.Percent.decode? name = some f.name ∧ f.transform.human type v = .ok text ∧
    Text.Percent.decode? value = some text

variable {f : PartitionField} {type : DataType} {v : Value} {segment : String}

theorem segment_eq_ok :
    f.segment type v = .ok segment ↔ ∃ text, f.transform.human type v = .ok text ∧
      Text.Percent.encode f.name ++ "=" ++ Text.Percent.encode text = segment := by
  rw [PartitionField.segment, bind_eq_ok]
  exact exists_congr fun text => and_congr_right fun _ => Outcome.pure_eq_ok

/-- No slash is in a segment. -/
theorem slash_not_mem_segment (h : f.segment type v = .ok segment) : '/' ∉ segment.toList := by
  obtain ⟨text, -, rfl⟩ := segment_eq_ok.mp h
  have hslash := Text.Percent.not_mem_encode (c := '/') (by decide)
  simp [hslash]

theorem isSegment_segment (h : f.segment type v = .ok segment) : f.IsSegment type v segment := by
  obtain ⟨text, htext, rfl⟩ := segment_eq_ok.mp h
  have hequals := Text.Percent.not_mem_encode (c := '=') (by decide)
  refine ⟨?_, Text.Percent.encode f.name, Text.Percent.encode text, text, ?_,
    Text.Percent.decode?_encode f.name, htext, Text.Percent.decode?_encode text⟩
  · simp [List.count_append, List.count_eq_zero_of_not_mem (hequals _)]
  · have hjoin (name value : String) :
        name ++ "=" ++ value = (String.singleton '=').intercalate [name, value] := by
      rw [String.intercalate_cons_cons, String.intercalate_singleton]
      rfl
    rw [hjoin, parts_intercalate (by simp) (by simpa using ⟨hequals _, hequals _⟩)]

end PartitionField

namespace PartitionSpec

/-- The segments from a position on are those of the values there. Induction on the partition fields. -/
theorem getElem?_segmentsFrom {partition : Value} {position : Nat}
    {pairs : List (PartitionField × Field)} {segments : List String}
    (h : segmentsFrom partition position pairs = .ok segments) :
    segments.length = pairs.length ∧ ∀ i f g, pairs[i]? = some (f, g) →
      ∃ v segment, partition.at (position + i) = .ok v ∧ f.segment g.type v = .ok segment ∧
        segments[i]? = some segment := by
  induction pairs generalizing position segments with
  | nil =>
    obtain rfl := Except.ok.inj h
    simp
  | cons pair rest ih =>
    obtain ⟨f, g⟩ := pair
    obtain ⟨v, hv, h⟩ := bind_eq_ok.mp h
    obtain ⟨segment, hsegment, h⟩ := bind_eq_ok.mp h
    -- the other fields are read from the next position on
    obtain ⟨others, hothers, h⟩ := bind_eq_ok.mp h
    obtain rfl := Except.ok.inj h
    obtain ⟨hlength, hentries⟩ := ih hothers
    refine ⟨by simp [hlength], fun i f' g' hi => ?_⟩
    cases i with
    | zero =>
      obtain ⟨rfl, rfl⟩ : f = f' ∧ g = g' := by simpa using hi
      exact ⟨v, segment, hv, hsegment, rfl⟩
    | succ i =>
      obtain ⟨v', segment', hv', hsegment', hget⟩ := hentries i f' g' hi
      exact ⟨v', segment', by rwa [Nat.add_right_comm] at hv', hsegment', hget⟩

theorem slash_not_mem_segmentsFrom {partition : Value} {position : Nat}
    {pairs : List (PartitionField × Field)} {segments : List String}
    (h : segmentsFrom partition position pairs = .ok segments) :
    ∀ segment ∈ segments, '/' ∉ segment.toList := by
  intro segment hmem
  obtain ⟨hlength, hentries⟩ := getElem?_segmentsFrom h
  obtain ⟨i, hi, rfl⟩ := List.mem_iff_getElem.mp hmem
  obtain ⟨v, segment, -, hsegment, hget⟩ :=
    hentries i _ _ (List.getElem?_eq_getElem (hlength ▸ hi))
  obtain rfl := Option.some.inj ((List.getElem?_eq_getElem hi).symm.trans hget)
  exact PartitionField.slash_not_mem_segment hsegment

/-- **Paths can be taken apart.** A path has one segment for each partition field, and the segment at a
place shows the value there: its two sides are the name of the field and the text of the value. -/
theorem parts_path {s : PartitionSpec} {schema : Schema} {partition : Value} {path : String}
    (hfields : s.fields ≠ []) (h : s.path schema partition = .ok path) :
    (parts '/' path).length = s.fields.length ∧
      ∀ i f, s.fields[i]? = some f → ∃ g v segment, resultField schema f = .ok g ∧
        partition.at i = .ok v ∧ (parts '/' path)[i]? = some segment ∧
        f.IsSegment g.type v segment := by
  obtain ⟨results, hresults, h⟩ := bind_eq_ok.mp h
  obtain ⟨segments, hsegments, h⟩ := bind_eq_ok.mp h
  obtain rfl := Except.ok.inj h
  obtain ⟨hlength, hentries⟩ := getElem?_segmentsFrom hsegments
  have hpairs : segments.length = s.fields.length := by
    rw [hlength, List.length_zip, ← (mapM_eq_ok.mp hresults).length_eq, Nat.min_self]
  -- the only slashes are those between the segments
  have hparts : parts '/' ("/".intercalate segments) = segments :=
    parts_intercalate (List.ne_nil_of_length_pos (hpairs ▸ List.length_pos_of_ne_nil hfields))
      (slash_not_mem_segmentsFrom hsegments)
  rw [hparts]
  refine ⟨hpairs, fun i f hi => ?_⟩
  obtain ⟨g, hg, hresult⟩ := getElem?_of_mapM hresults hi
  obtain ⟨v, segment, hv, hsegment, hget⟩ :=
    hentries i f g (List.getElem?_zip_eq_some.mpr ⟨hi, hg⟩)
  exact ⟨g, v, segment, hresult, by rwa [Nat.zero_add] at hv, hget,
    PartitionField.isSegment_segment hsegment⟩

/-- A path of one segment, whose name and value hold the marks of paths and another character. -/
theorem parts_path_marks :
    let column : PartitionField := ⟨1, 1000, .identity, "a/b=c%"⟩
    let schema := Schema.ofFields [⟨1, "a", .primitive .string, false, none⟩]
    let path := "a%2Fb%3Dc%25=%C3%A9%2F%3D%25"
    PartitionSpec.path ⟨0, [column]⟩ schema (.record [.text "é/=%"]) = .ok path ∧
      (parts '/' path).length = 1 ∧ ∃ segment, (parts '/' path)[0]? = some segment ∧
        column.IsSegment (.primitive .string) (.text "é/=%") segment := by
  intro column schema path
  -- Every mark of the path syntax is escaped, in the name and in the value.
  have hname : Text.Percent.encode "a/b=c%" = "a%2Fb%3Dc%25" := by decide +kernel
  have hvalue : Text.Percent.encode "é/=%" = "%C3%A9%2F%3D%25" := by decide +kernel
  have hpath := calc
    PartitionSpec.path ⟨0, [column]⟩ schema (.record [.text "é/=%"])
      = .ok (Text.Percent.encode "a/b=c%" ++ "=" ++ Text.Percent.encode "é/=%") := rfl
    _ = .ok path := by rw [hname, hvalue]; rfl
  obtain ⟨hlength, hparts⟩ := parts_path (List.cons_ne_nil column []) hpath
  obtain ⟨g, v, segment, hresult, hv, hget, hsegment⟩ := hparts 0 column rfl
  obtain rfl := Except.ok.inj hresult
  obtain rfl := Except.ok.inj hv
  exact ⟨hpath, hlength, segment, hget, hsegment⟩

end PartitionSpec

end PartitionPruning
