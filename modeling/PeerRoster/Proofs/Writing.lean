import PeerRoster.Proofs.Asking
import PeerRoster.Proofs.QueryString
import PeerRoster.Proofs.Spelling

/-! Writing a listing query as a query string. The parameters may come in any order and in any
spelling, with empty pieces and parameters of other names anywhere between them: what is read back
is the query. Nothing but a parameter that is given twice keeps a text from being read as a form. -/
namespace PeerRoster

theorem notMem_of_mem_splitOn {α : Type} [BEq α] [LawfulBEq α] (a : α) (xs : List α) :
    ∀ piece ∈ xs.splitOn a, a ∉ piece := by
  induction xs with
  | nil => simp
  | cons x xs ih =>
    rw [List.splitOn_cons_eq_if_modifyHead]
    by_cases h : x = a
    · simpa [h] using ih
    · obtain ⟨first, rest, hsplit⟩ := List.exists_cons_of_ne_nil (List.splitOn_ne_nil a xs)
      rw [hsplit] at ih ⊢
      simpa [h, Ne.symm h] using ih

namespace Utf8

theorem encode_intercalate (pieces : List (List Char)) :
    encode (['&'].intercalate pieces) = [0x26].intercalate (pieces.map encode) := by
  induction pieces with
  | nil => rfl
  | cons piece pieces ih =>
    cases pieces with
    | nil => simp
    | cons next pieces =>
      rw [List.intercalate_cons_cons, encode_append, encode_append, ih]
      simp only [List.map_cons, List.intercalate_cons_cons]
      rfl

end Utf8

namespace QueryString

/-- Some pieces with an ampersand between each two. -/
def join (pieces : List (List Char)) : String := String.ofList (['&'].intercalate pieces)

theorem pairs_join {pieces : List (List Char)} (h : ∀ piece ∈ pieces, '&' ∉ piece) :
    pairs (Utf8.bytes (join pieces)) =
      (pieces.filter (!·.isEmpty)).map fun piece => pair (Utf8.encode piece) := by
  rw [pairs, Utf8.bytes, join, String.toList_ofList, Utf8.encode_intercalate]
  cases pieces with
  | nil => rfl
  | cons piece pieces =>
    have hbytes : ∀ bs ∈ (piece :: pieces).map Utf8.encode, (0x26 : UInt8) ∉ bs :=
      List.forall_mem_map.mpr fun p hp => Utf8.ascii_notMem_encode (c := '&') (by decide) (h p hp)
    rw [List.splitOn_intercalate _ hbytes (by simp), List.filter_map, List.map_map]
    simp only [Function.comp_def, Utf8.isEmpty_encode]

theorem pair_encode {name : List Char} (h : '=' ∉ name) (text : List Char) :
    pair (Utf8.encode (name ++ '=' :: text)) =
      (component (Utf8.encode name), component (Utf8.encode text)) := by
  have hname : ∀ b ∈ Utf8.encode name, (b != 0x3D) = true := by
    intro b hb
    have hne := Utf8.ascii_notMem_encode (c := '=') (by decide) h
    rw [bne_iff_ne]
    rintro rfl
    exact hne hb
  have hbytes : Utf8.encode (name ++ '=' :: text) = Utf8.encode name ++ 0x3D :: Utf8.encode text :=
    Utf8.encode_append _ _
  rw [pair, hbytes, List.takeWhile_append_of_pos hname, List.dropWhile_append_of_pos hname]
  simp

/-- Whether a piece is of the name of a parameter, once the name is decoded. -/
def Names (p : Parameter) (piece : List Char) : Prop := (pair (Utf8.encode piece)).1 = p.label

instance (p : Parameter) (piece : List Char) : Decidable (Names p piece) :=
  inferInstanceAs (Decidable (_ = _))

theorem not_names_nil (p : Parameter) : ¬ Names p [] := by
  cases p <;> decide +kernel

theorem length_values_pairs (p : Parameter) (s : String) :
    (values p (pairs (Utf8.bytes s))).length = (s.toList.splitOn '&').countP (Names p ·) := by
  have hs : s = join (s.toList.splitOn '&') := by
    rw [join, List.intercalate_splitOn, String.ofList_toList]
  conv_lhs => rw [hs]
  rw [pairs_join (notMem_of_mem_splitOn _ _), values, List.length_map, ← List.countP_eq_length_filter,
    List.countP_map, List.countP_filter]
  refine List.countP_congr fun piece _ => ?_
  simp only [Function.comp_apply, Bool.and_eq_true, decide_eq_true_eq]
  cases piece with
  | nil => simp [not_names_nil]
  | cons c cs => simp [Names]

theorem ofQueryString_error_iff (s : String) :
    (∃ e, Form.ofQueryString s = .error e) ↔
      ∃ p, 2 ≤ (s.toList.splitOn '&').countP (Names p ·) := by
  constructor
  · rintro ⟨⟨p⟩, h⟩
    exact ⟨p, length_values_pairs p s ▸ values_of_ofPairs_error h⟩
  · rintro ⟨p, hp⟩
    cases h : Form.ofQueryString s with
    | error e => exact ⟨e, rfl⟩
    | ok f =>
      have hle := (exists_ofPairs_iff _).mp ⟨f, h⟩ p
      rw [length_values_pairs] at hle
      omega

/-- Whether a piece gives a parameter a value, in any spelling of its name and the value. -/
def Gives (p : Parameter) (value : String) (piece : List Char) : Prop :=
  ∃ name text, piece = name ++ '=' :: text ∧ Spells name (Utf8.bytes p.label) ∧
    Spells text (Utf8.bytes value)

/-- How a parameter is usually written: as it is, but the filter by percent signs. -/
def usual (p : Parameter) (value : String) : List Char :=
  p.label.toList ++ '=' ::
    if p = .destination then Percent.encode (Utf8.bytes value) else value.toList

/-- Whether a piece is of a name that no parameter has, or is empty. -/
def Ignored (piece : List Char) : Prop := '&' ∉ piece ∧ ∀ p, ¬ Names p piece

/-- Pieces that give parameters their values in order, with any that are ignored in between. -/
inductive Writes : List (Parameter × String) → List (List Char) → Prop
  | nil : Writes [] []
  | skip {ps : List (Parameter × String)} {pieces : List (List Char)} {piece : List Char} :
      Ignored piece → Writes ps pieces → Writes ps (piece :: pieces)
  | give {ps : List (Parameter × String)} {pieces : List (List Char)} {piece : List Char}
      {p : Parameter} {value : String} :
      Gives p value piece → Writes ps pieces → Writes ((p, value) :: ps) (piece :: pieces)

theorem ignored_nil : Ignored [] := ⟨List.not_mem_nil, not_names_nil⟩

theorem ignored_of_spells {name text : List Char} {n : String} (hname : Spells name (Utf8.bytes n))
    (hn : ∀ p : Parameter, n ≠ p.label) (htext : '&' ∉ text) : Ignored (name ++ '=' :: text) := by
  refine ⟨by simp [hname.separator_notMem, htext], fun p hp => hn p ?_⟩
  rwa [Names, pair_encode hname.separator_notMem.2, hname.component] at hp

namespace Gives

variable {p : Parameter} {value : String} {piece : List Char}

theorem separator_notMem (h : Gives p value piece) : '&' ∉ piece := by
  obtain ⟨name, text, rfl, hname, htext⟩ := h
  simp [hname.separator_notMem, htext.separator_notMem]

theorem pair_eq (h : Gives p value piece) : pair (Utf8.encode piece) = (p.label, value) := by
  obtain ⟨name, text, rfl, hname, htext⟩ := h
  rw [pair_encode hname.separator_notMem.2, hname.component, htext.component]

theorem isEmpty_eq_false (h : Gives p value piece) : piece.isEmpty = false := by
  obtain ⟨name, text, rfl, -⟩ := h
  simp

end Gives

theorem gives_usual {p : Parameter} {value : String}
    (h : p ≠ .destination → Signless value.toList) : Gives p value (usual p value) := by
  have hname : Signless p.label.toList := by cases p <;> decide
  refine ⟨_, _, rfl, .of_signless hname, ?_⟩
  by_cases hp : p = .destination
  · rw [if_pos hp]
    exact .encode _
  · rw [if_neg hp]
    exact .of_signless (h hp)

/-- The values of one parameter among those of several. -/
def given (p : Parameter) (ps : List (Parameter × String)) : List String :=
  (ps.filter (·.1 = p)).map (·.2)

namespace Writes

variable {ps : List (Parameter × String)} {pieces : List (List Char)}

theorem separator_notMem (h : Writes ps pieces) : ∀ piece ∈ pieces, '&' ∉ piece := by
  induction h with
  | nil => simp
  | skip hi _ ih => exact List.forall_mem_cons.mpr ⟨hi.1, ih⟩
  | give hg _ ih => exact List.forall_mem_cons.mpr ⟨hg.separator_notMem, ih⟩

/-- A parameter is read with the values that are written for it. -/
theorem values_pairs (h : Writes ps pieces) (p : Parameter) :
    values p (pairs (Utf8.bytes (join pieces))) = given p ps := by
  rw [pairs_join h.separator_notMem]
  induction h with
  | nil => rfl
  | @skip ps pieces piece hi _ ih =>
    cases piece with
    | nil => exact ih
    | cons c cs =>
      rw [List.filter_cons_of_pos rfl, List.map_cons, ← ih]
      exact values_cons_of_ne (hi.2 p) _ _
  | @give ps pieces piece q value hg _ ih =>
    rw [List.filter_cons_of_pos (by simp [hg.isEmpty_eq_false]), List.map_cons, hg.pair_eq]
    by_cases hq : q = p
    · subst hq
      simp [values_cons_of_eq, ih, given]
    · rw [values_cons_of_ne fun hl => hq (Parameter.label_injective hl), ih]
      simp [given, hq]

end Writes
end QueryString

namespace Form

theorem ext_get {f g : Form} (h : ∀ p, f.get p = g.get p) : f = g := by
  cases f
  cases g
  exact (mk.injEq ..).mpr ⟨h .start, h .limit, h .destination, h .order, h .direction⟩

/-- The parameters that a form holds, with their values. -/
def parameters (f : Form) : List (Parameter × String) :=
  Parameter.all.flatMap fun p => (f.get p).toList.map (p, ·)

theorem mem_parameters (f : Form) (p : Parameter) (value : String) :
    (p, value) ∈ f.parameters ↔ f.get p = some value := by
  cases p <;> simp [parameters, Parameter.all]

theorem given_parameters (f : Form) (p : Parameter) :
    QueryString.given p f.parameters = (f.get p).toList := by
  have hp : ∀ q, QueryString.given p ((f.get q).toList.map (q, ·)) =
      if q = p then (f.get p).toList else [] := by
    intro q
    by_cases hq : q = p
    · subst hq
      simp [QueryString.given, Function.comp_def, List.filter_map]
    · simp [QueryString.given, Function.comp_def, hq, List.filter_map]
  have hall : QueryString.given p f.parameters =
      Parameter.all.flatMap fun q => QueryString.given p ((f.get q).toList.map (q, ·)) := by
    simp only [QueryString.given, parameters, List.filter_flatMap, List.map_flatMap]
  rw [hall]
  simp only [hp]
  cases p <;> simp [Parameter.all]

theorem ofQueryString_join {f : Form} {ps : List (Parameter × String)} {pieces : List (List Char)}
    (hf : ps.Perm f.parameters) (h : QueryString.Writes ps pieces) :
    ofQueryString (QueryString.join pieces) = .ok f := by
  have hvalues : ∀ p, QueryString.values p
      (QueryString.pairs (Utf8.bytes (QueryString.join pieces))) = (f.get p).toList := by
    intro p
    have hperm : (QueryString.given p ps).Perm (f.get p).toList :=
      f.given_parameters p ▸ (hf.filter _).map _
    rw [h.values_pairs]
    revert hperm
    cases f.get p with
    | none => exact List.perm_nil.mp
    | some value => exact List.perm_singleton.mp
  obtain ⟨g, hg⟩ := (QueryString.exists_ofPairs_iff _).mpr fun p => by
    rw [hvalues p]
    exact Option.length_toList_le
  have hget : ∀ p, g.get p = f.get p := by
    intro p
    have hlist := QueryString.values_of_ofPairs hg p
    rw [hvalues p] at hlist
    simpa using congrArg List.head? hlist.symm
  rwa [ext_get hget] at hg

/-- The form of a query: its numbers in decimal, its choices by their labels. -/
def asking (filter : Option String) (k : SortKey) (d : Direction) (w : Window) : Form :=
  ⟨some (toString w.start.toNat), some (toString w.limit.toNat), filter, some k.label, some d.label⟩

/-- A query with bounds that a form can name is asked for by its form, unless the filter is empty.
-/
theorem toQuery_asking {filter : Option String} (hfilter : filter ≠ some "") (k : SortKey)
    (d : Direction) {w : Window} (hstart : w.start.toNat ≤ 0x7FFFFFFFFFFFFFFF)
    (hlimit : w.limit.toNat ≤ 0x7FFFFFFFFFFFFFFF) :
    (asking filter k d w).toQuery = .ok ⟨filter, k, d, some w⟩ := by
  have hs := reads_toString .start defaultStart hstart
  have hl := reads_toString .limit defaultLimit hlimit
  have hk : orderOf (some k.label) = .ok k := by
    simp [orderOf, choice, SortKey.ofString, Except.mapError]
  have hd : directionOf (some d.label) = .ok d := by
    simp [directionOf, choice, Direction.ofString, Except.mapError]
  have hf : filterOf filter = filter := by
    cases filter with
    | none => rfl
    | some part => exact if_neg fun h => hfilter (congrArg some h)
  refine (toQuery_eq_ok_iff _ _).mpr ⟨w.start, w.limit, k, d, hs, hl, hk, hd, ?_⟩
  rw [asking, hf]

theorem gives_asking (filter : Option String) (k : SortKey) (d : Direction) (w : Window) :
    ∀ x ∈ (asking filter k d w).parameters,
      QueryString.Gives x.1 x.2 (QueryString.usual x.1 x.2) := by
  rintro ⟨p, value⟩ hx
  have hget := (mem_parameters _ _ _).mp hx
  refine QueryString.gives_usual fun hp => ?_
  cases p with
  | start => exact Option.some.inj hget ▸ QueryString.signless_toString _
  | limit => exact Option.some.inj hget ▸ QueryString.signless_toString _
  | destination => contradiction
  | order =>
    obtain rfl := Option.some.inj hget
    cases k <;> decide
  | direction =>
    obtain rfl := Option.some.inj hget
    cases d <;> decide

/-- A query whose bounds a form can name and whose filter, if there is one, is not empty is read
back from its parameters, in whatever order they are written, with any pieces in between that are
empty or of other names, and in any spelling: the usual one is among them. And a text is no form
exactly if two of its pieces are of the same parameter, once their names are decoded. -/
theorem ofQueryString_written :
    (∀ (filter : Option String) (k : SortKey) (d : Direction) (w : Window), filter ≠ some "" →
      w.start.toNat ≤ 0x7FFFFFFFFFFFFFFF → w.limit.toNat ≤ 0x7FFFFFFFFFFFFFFF →
      (∀ x ∈ (asking filter k d w).parameters,
        QueryString.Gives x.1 x.2 (QueryString.usual x.1 x.2)) ∧
      ∀ ps pieces, ps.Perm (asking filter k d w).parameters → QueryString.Writes ps pieces →
        ∃ f, ofQueryString (QueryString.join pieces) = .ok f ∧
          f.toQuery = .ok ⟨filter, k, d, some w⟩) ∧
    ∀ s, (∃ e, ofQueryString s = .error e) ↔
      ∃ p, 2 ≤ (s.toList.splitOn '&').countP (QueryString.Names p ·) := by
  refine ⟨fun filter k d w hfilter hstart hlimit => ⟨gives_asking filter k d w, ?_⟩,
    QueryString.ofQueryString_error_iff⟩
  intro ps pieces hps hpieces
  exact ⟨_, ofQueryString_join hps hpieces, toQuery_asking hfilter k d hstart hlimit⟩

/-- A filter with every sign, a name that is spelled by percent sign, and a parameter of another
name twice, with and without a value. -/
theorem ofQueryString_written_mixed :
    (∃ f, ofQueryString ("x=1&d%69r=b&&limit=7&x&order_by=retry_interval&" ++
        "destination=b%26%3D%2B%25%20%00%C3%A9%F0%9F%98%80&from=9223372036854775807&") = .ok f ∧
      f.toQuery = .ok ⟨some "b&=+% \x00é😀", .interval, .backward,
        some ⟨0x7FFFFFFFFFFFFFFF, 7⟩⟩) ∧
    ∃ e, ofQueryString "from=1&&fr%6Fm=2" = .error e := by
  let filter := "b&=+% \x00é😀"
  let start := toString 0x7FFFFFFFFFFFFFFF
  have hx : QueryString.Ignored "x=1".toList :=
    QueryString.ignored_of_spells (.of_signless (by decide)) (n := "x")
      (fun p => by cases p <;> decide) (by decide)
  have hx' : QueryString.Ignored "x".toList :=
    ⟨by decide, fun p => by cases p <;> decide +kernel⟩
  have hdir : QueryString.Gives .direction "b" "d%69r=b".toList := by
    have hlabel : Utf8.bytes Parameter.direction.label = [0x64, 0x69, 0x72] := by decide +kernel
    refine ⟨"d%69r".toList, "b".toList, by decide, ?_, .of_signless (by decide)⟩
    rw [hlabel]
    show QueryString.Spells _
      (String.utf8EncodeChar 'd' ++ 0x69 :: (String.utf8EncodeChar 'r' ++ []))
    exact .plain (by decide) (.percent (.inl rfl) (.inl rfl) (.plain (by decide) .nil))
  obtain ⟨husual, hread⟩ := ofQueryString_written.1 (some filter) .interval .backward
    ⟨0x7FFFFFFFFFFFFFFF, 7⟩ (by decide +kernel) (by decide) (by decide)
  have hempty := QueryString.ignored_nil
  constructor
  · obtain ⟨f, hf, hquery⟩ := hread [(.direction, "b"), (.limit, "7"), (.order, "retry_interval"),
      (.destination, filter), (.start, start)] _ (by decide +kernel)
      (.skip hx (.give hdir (.skip hempty (.give (husual (.limit, "7") (by decide +kernel))
        (.skip hx' (.give (husual (.order, "retry_interval") (by decide +kernel))
          (.give (husual (.destination, filter) (by decide +kernel))
            (.give (husual (.start, start) (by decide +kernel)) (.skip hempty .nil)))))))))
    exact ⟨f, (congrArg ofQueryString (by decide +kernel)).trans hf, hquery⟩
  · exact (ofQueryString_written.2 _).mpr ⟨.start, by decide +kernel⟩

end Form
end PeerRoster
