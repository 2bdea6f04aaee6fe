import RowFlow.Proofs.Csv.Rows

/-!
# Files Under Way

A writer touches its file with the first row, or at the end if there was none. From then on the file
holds the header and the rows that have come, one record each (`FileWriter.put_after`), and the end
adds nothing.
-/

namespace RowFlow

/-! ## Files -/

namespace Files

theorem read?_write (files : Files) (path : String) (content : List UInt8) :
    (files.write path content).read? path = some content :=
  List.lookup_cons_self

/-- Writing a file again is as good as writing it once. -/
theorem write_write (files : Files) (path : String) (first second : List UInt8) :
    (files.write path first).write path second = files.write path second := by
  simp [write, List.filter_filter]

theorem append_write (files : Files) (path : String) (first second : List UInt8) :
    (files.write path first).append path second = files.write path (first ++ second) := by
  rw [append, read?_write, write_write]
  rfl

end Files

/-! ## Writers -/

namespace FileWriter

variable (writer : FileWriter)

theorem content_nil : writer.content [] = (writer.header.map writer.record).getD [] := by
  unfold content lines
  cases writer.header with
  | none => rfl
  | some names => exact List.append_nil _

/-- A row adds its record to the content. -/
theorem content_append (held : List (List Value)) (values : List Value) :
    writer.content (held ++ [values]) =
      writer.content held ++ writer.record (values.map writer.cell) := by
  simp only [content, lines, Csv.writeTexts, List.map_append, List.flatMap_append, List.map_cons,
    List.map_nil, List.flatMap_cons, List.flatMap_nil, List.append_nil, List.append_assoc]
  rfl

/-- The writer after some rows. -/
def after (held : List (List Value)) : FileWriter := { writer with created := !held.isEmpty }

/-- The files after some rows. Without any the file has not been touched. -/
def filesAfter (held : List (List Value)) (files : Files) : Files :=
  if held.isEmpty then files else files.write writer.path (writer.content held)

variable {writer} (hpath : Files.reaches writer.path = true)
include hpath

/-- Once the file is there it holds the rows that have come. -/
theorem create_after (held : List (List Value)) (files : Files) :
    (writer.after held).create (writer.filesAfter held files) =
      (.ok (), { writer with created := true },
        files.write writer.path (writer.content held)) := by
  cases held with
  | nil =>
    rw [content_nil]
    exact if_pos hpath
  | cons values rest => rfl

theorem put_after (held : List (List Value)) (values : List Value) (files : Files) :
    (writer.after held).put values (writer.filesAfter held files) =
      (.ok (), writer.after (held ++ [values]), writer.filesAfter (held ++ [values]) files) := by
  have hany : (held ++ [values]).isEmpty = false := by simp
  rw [put, create_after hpath]
  dsimp only
  rw [Files.append_write, after, filesAfter, hany, content_append]
  rfl

end FileWriter

end RowFlow
