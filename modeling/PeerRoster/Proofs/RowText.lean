import PeerRoster.Destination
import PeerRoster.Proofs.Reading
import PeerRoster.Proofs.Record

/-! A row is read back from its own JSON text, from any text of an object that holds its fields, and
from any text of the list of its values. -/
namespace PeerRoster
namespace Destination

theorem ofMembers?_of_holds {d : Destination} {ms : Json.Members} (h : Json.Holds ms d.record) :
    ofMembers? ms = some d := by
  have hname := h.required? "destination" (StoredName.toJson d.name)
    (by simp [record, fields]) nofun StoredName.ofJson?
  have hlast := h.required? "retry_last_ts" (.ofInt64 d.retry.lastTs)
    (by simp [record, fields]) nofun Json.int64?
  have hinterval := h.required? "retry_interval" (.ofInt64 d.retry.interval)
    (by simp [record, fields]) nofun Json.int64?
  have hfailure := h.optional? "failure_ts" (.ofNullable .ofInt64 d.retry.failureTs)
    (by simp [record, fields]) Json.int64?
  have hstream := h.optional? "last_successful_stream_ordering"
    (.ofNullable .ofInt64 d.streamOrdering) (by simp [record, fields]) Json.int64?
  rw [StoredName.ofJson?_toJson] at hname
  rw [Json.int64?_ofInt64] at hlast hinterval
  rw [Json.nullable?_ofInt64] at hfailure hstream
  have hw : Json.wellNamed fields ms = true := h.wellNamed
  rw [ofMembers?, if_pos hw, hname, hlast, hinterval, hfailure, hstream]
  rfl

theorem holds_record (d : Destination) :
    Json.Holds (d.record.map fun field => (.text field.1, field.2)) d.record where
  legible := by
    intro m hm
    obtain ⟨field, -, rfl⟩ := List.mem_map.mp hm
    exact ⟨field.1, rfl⟩
  held := by simp [record, fields, Json.named]

theorem ofJson?_toJson (d : Destination) : ofJson? d.toJson = some d :=
  ofMembers?_of_holds d.holds_record

theorem ofJson?_values (d : Destination) : ofJson? (.arr (d.record.map (·.2))) = some d := by
  simp only [record, fields, List.zip_cons_cons, List.zip_nil_left, List.map_cons, List.map_nil,
    ofJson?, StoredName.ofJson?_toJson, Json.int64?_ofInt64, Json.nullable?_ofInt64]
  rfl

theorem ofText?_of_spells {text : String} {v : Json} (h : v.Spells text.toList) :
    ofText? text = ofJson? v := by
  rw [ofText?, Json.parse?_of_spells h]

/-- A row is read back from its own text; from every text of an object that has each of its fields
once, in any order and with any members of other names, where null fields may be left out; and from
every text of the list of its values. -/
theorem ofText?_layouts (d : Destination) :
    ofText? d.toJson.render = some d ∧
    (∀ (ms : Json.Members) (text : String), Json.Holds ms d.record →
      Json.Spells text.toList (.obj ms) → ofText? text = some d) ∧
    ∀ text : String, Json.Spells text.toList (.arr (d.record.map (·.2))) → ofText? text = some d := by
  refine ⟨?_, fun ms text hms htext => ?_, fun text htext => ?_⟩
  · rw [ofText?_of_spells d.toJson.spells_render, ofJson?_toJson]
  · rw [ofText?_of_spells htext]
    exact ofMembers?_of_holds hms
  · rw [ofText?_of_spells htext, ofJson?_values]

/-- A name in escapes, the smallest number, and two members of one other name, of which one holds a
number out of range and the other a surrogate that stands alone; and a list with blanks. -/
theorem ofText?_layouts_escaped :
    ofText? (" \x7b \"x\" : 1E+999 , \"retry_interval\":-9223372036854775808,\n" ++
        "\"\\u0064estination\":\"\\ud83d\\uDE00\\u0000\\/\",\"x\":[\"\\ud800\"]," ++
        "\"retry_last_ts\":0,\"failure_ts\":null\x7d") =
      some ⟨"😀\x00/", ⟨none, 0, -9223372036854775808⟩, none⟩ ∧
    ofText? "[\"\", 0 ,\t-1,null,2\n]" = some ⟨"", ⟨none, 0, -1⟩, some 2⟩ := by
  let ms : Json.Members := [(.text "x", .real (some .after)),
    (.text "retry_interval", .int (-9223372036854775808)),
    (.text "destination", .str (.text "😀\x00/")), (.text "x", .arr [.str (.broken .after)]),
    (.text "retry_last_ts", .int 0), (.text "failure_ts", .null)]
  have hblank : Json.IsGap [' '] := by decide
  have hbreak : Json.IsGap ['\n'] := by decide
  have htab : Json.IsGap ['\t'] := by decide
  have hword := fun s : String => Json.spells_spell (.text s)
  have hnumber : Json.Token.Spells ['1', 'E', '+', '9', '9', '9'] (.value (.real (some .after))) := by
    have hd : Json.Number.defect? ⟨false, [1], [], false, [9, 9, 9]⟩ = some .after := by
      decide +kernel
    rw [← hd]
    have hexponent : Json.Number.SpellsExponent ['E', '+', '9', '9', '9'] false [9, 9, 9] :=
      @Json.Number.SpellsExponent.present 'E' ['+'] false [9, 9, 9] (by decide) (by decide)
        (by decide) (by decide)
    exact .real ⟨[], _, ⟨by decide, 1, [], rfl, fun _ => rfl⟩, .absent, hexponent, rfl⟩
      (.inr (.inl (by decide)))
  have hkey := Json.Token.Spells.str (.unit (c := 'd')
    ⟨'0', '0', '6', '4', [0, 0, 6, 4], rfl, by decide, by decide⟩
    (Json.Literal.spells_escape "estination".toList))
  have hkeyText : Json.Literal.cons 'd' (.text (String.ofList "estination".toList)) =
      .text "destination" := by decide +kernel
  rw [hkeyText] at hkey
  have hname := Json.Token.Spells.str (.pair (c := '😀') (m := 0xD83D) (n := 0xDE00)
    ⟨'d', '8', '3', 'd', [13, 8, 3, 13], rfl, by decide, by decide⟩ ⟨by decide, by decide⟩
    ⟨'D', 'E', '0', '0', [13, 14, 0, 0], rfl, by decide, by decide⟩ ⟨by decide, by decide⟩ (by decide)
    (.unit (c := '\x00') ⟨'0', '0', '0', '0', [0, 0, 0, 0], rfl, by decide, by decide⟩
      (.char (.short (e := '/') (c := '/') (by decide)) .nil)))
  have hnameText : Json.Literal.cons '😀' (.cons '\x00' (.cons '/' (.text ""))) =
      .text "😀\x00/" := by decide +kernel
  rw [hnameText] at hname
  have hbroken := Json.spells_spell (.broken .after)
  have hobject : Json.Spells _ (.obj ms) := .cons hblank (.mark .openBrace) <|
    .cons hblank (hword "x") <| .cons hblank (.mark .colon) <| .cons hblank hnumber <|
    .cons hblank (.mark .comma) <| .cons hblank (hword "retry_interval") <| .mark .colon <|
    .token (.int _) <| .mark .comma <| .cons hbreak hkey <| .mark .colon <| .token hname <|
    .mark .comma <| .token (hword "x") <| .mark .colon <| .mark .openBracket <| .token hbroken <|
    .mark .closeBracket <| .mark .comma <| .token (hword "retry_last_ts") <| .mark .colon <|
    .token (.int 0) <| .mark .comma <| .token (hword "failure_ts") <| .mark .colon <|
    .token .null <| .mark .closeBrace Json.lays_nil
  have hlist : Json.Spells _ (.arr [.str (.text ""), .int 0, .int (-1), .null, .int 2]) :=
    .mark .openBracket <| .token (hword "") <| .mark .comma <| .cons hblank (.int 0) <|
    .cons hblank (.mark .comma) <| .cons htab (.int (-1)) <| .mark .comma <|
    .token .null <| .mark .comma <| .token (.int 2) <| .cons hbreak (.mark .closeBracket)
    Json.lays_nil
  constructor
  · refine (ofText?_layouts ⟨"😀\x00/", ⟨none, 0, -9223372036854775808⟩, none⟩).2.1 ms _ ?_ ?_
    · refine ⟨by simp [ms], ?_⟩
      simp [ms, record, fields, StoredName.toJson, Json.named, Json.ofInt64, Json.ofNullable]
    · refine (congrArg (Json.Spells · (.obj ms)) ?_).mp hobject
      decide +kernel
  · refine (ofText?_layouts ⟨"", ⟨none, 0, -1⟩, some 2⟩).2.2 _ ?_
    refine (congrArg (Json.Spells · _) ?_).mp hlist
    decide +kernel

end Destination
end PeerRoster
