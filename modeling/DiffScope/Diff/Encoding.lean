import DiffScope.Diff.LineMap
import DiffScope.Json.Value

/-!
# Line maps as JSON

A line map is written with the lines that the diff adds in front of its hunks.
-/

namespace DiffScope.Diff

def Header.toJson (h : Header) : Json :=
  .object [
    ("old_start", .natural h.oldStart),
    ("old_len", .natural h.oldLen),
    ("new_start", .natural h.newStart),
    ("new_len", .natural h.newLen)]

def Entry.toJson (e : Entry) : Json :=
  .object [
    ("position", .natural e.position),
    ("kind", .string e.role.name),
    ("old_line", .ofOption .natural e.role.oldLine?),
    ("new_line", .ofOption .natural e.role.newLine?),
    ("text", .string e.text)]

def Hunk.toJson (h : Hunk) : Json :=
  .object [("header", h.header.toJson), ("entries", .ofList Entry.toJson h.entries)]

def AddedLines.toJson (s : AddedLines) : Json :=
  .ofList .natural s.toList

def LineMap.toJson (m : LineMap) : Json :=
  .object [("added_lines", m.addedLines.toJson), ("hunks", .ofList Hunk.toJson m.hunks)]

end DiffScope.Diff
