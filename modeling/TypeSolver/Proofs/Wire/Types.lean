import TypeSolver.Proofs.Json.Value
import TypeSolver.Proofs.Solver.Hygiene
import TypeSolver.Wire.Types

/-!
# Types and constraints survive JSON

A type is written as an object with its tag in front, and read in two stages: in a text the tag is
looked at as it comes and the other members are kept as a tree (`read_tagged`), and in a tree the
parts of the type are then taken from the members.  `Encodes` speaks of the second stage alone: a
value has the tag of a variant, and its parts make up a result.  Each part is described by how it is
written and what is read from it (`WrittenPart`), and `encodes_tagged` puts the parts of a variant
together.  From it follow the types, if the types inside them are read (`encodes_ofTy`), which is an
induction on the depth of the tree, and the constraints (`encodes_ofConstraint`).

A number literal that is infinite or a NaN is written as `null`, which is no number.  So the result
of reading is `checked`: the value, or the one error `notFinite`.  Since it is the same error
wherever it occurs, a whole is `checked` by the conjunction of its parts.

What a type has to bring along is in `Exchangeable`: its objects have their fields in order, as all
objects do that are built from fields, and its finite literals read back.
-/

namespace TypeSolver

/-! ## Types that can be exchanged -/

namespace Ty

/-- Whether every number literal of a type satisfies a condition. -/
def everyLiteral (p : Double → Bool) : Ty → Bool := every fun t =>
  match t with
  | numberLit x => p x
  | _ => true

/-- Whether the fields of every object in a type are in the order of their names. -/
def ordered : Ty → Bool := every fun t =>
  match t with
  | object fs => (fs.map Prod.fst).Pairwise (· < ·)
  | _ => true

/-- Whether no literal of a type is infinite or a NaN. -/
def finite : Ty → Bool := everyLiteral Double.isFinite

/-- A field behind all others goes to the end. -/
lemma putField_of_lt {fs : List (String × Ty)} {k : String} (t : Ty)
    (h : ∀ f ∈ fs, f.1 < k) : putField fs k t = fs ++ [(k, t)] := by
  induction fs with
  | nil => rfl
  | cons f fs ih =>
    obtain ⟨hf, hfs⟩ := List.forall_mem_cons.1 h
    have hne : k ≠ f.1 := by
      rintro rfl
      exact String.lt_irrefl _ hf
    rw [putField, if_neg (String.lt_asymm hf), if_neg hne, ih hfs, List.cons_append]

/-- Fields that are in order make the object with these fields. -/
lemma ofFields_of_pairwise {fs : List (String × Ty)}
    (h : (fs.map Prod.fst).Pairwise (· < ·)) : ofFields fs = object fs := by
  have hfold : ∀ gs : List (String × Ty), ((gs ++ fs).map Prod.fst).Pairwise (· < ·) →
      fs.foldl (fun acc f => putField acc f.1 f.2) gs = gs ++ fs := by
    clear h
    induction fs with
    | nil => simp
    | cons f fs ih =>
      intro gs hgs
      have hlt : ∀ g ∈ gs, g.1 < f.1 := by
        intro g hg
        rw [List.map_append, List.pairwise_append] at hgs
        exact hgs.2.2 g.1 (List.mem_map_of_mem hg) f.1 (by simp)
      rw [List.foldl_cons, putField_of_lt f.2 hlt, ih _ (by simpa using hgs)]
      simp
  rw [ofFields, hfold [] (by simpa using h), List.nil_append]

lemma mem_of_mem_putField {fs : List (String × Ty)} {k : String} {t : Ty} {g : String × Ty}
    (hg : g ∈ putField fs k t) : g = (k, t) ∨ g ∈ fs := by
  induction fs with
  | nil => exact .inl (List.mem_singleton.1 hg)
  | cons f fs ih =>
    rw [putField] at hg
    split at hg
    · exact List.mem_cons.1 hg
    · split at hg
      · rename_i hk
        rcases List.mem_cons.1 hg with rfl | hg
        · exact .inl (by rw [hk])
        · exact .inr (List.mem_cons_of_mem _ hg)
      · rcases List.mem_cons.1 hg with rfl | hg
        · exact .inr List.mem_cons_self
        · exact (ih hg).imp id (List.mem_cons_of_mem _)

/-- Putting a field into its place keeps the order. -/
lemma pairwise_putField {fs : List (String × Ty)} (k : String) (t : Ty)
    (h : (fs.map Prod.fst).Pairwise (· < ·)) :
    ((putField fs k t).map Prod.fst).Pairwise (· < ·) := by
  induction fs with
  | nil => simp [putField]
  | cons f fs ih =>
    obtain ⟨hf, hfs⟩ := List.pairwise_cons.1 h
    rw [putField]
    split
    · rename_i hlt
      refine List.pairwise_cons.2 ⟨fun n hn => ?_, h⟩
      rcases List.mem_cons.1 hn with rfl | hn
      · exact hlt
      · exact String.lt_trans hlt (hf n hn)
    · rename_i hle
      split
      · exact h
      · rename_i hne
        refine List.pairwise_cons.2 ⟨fun n hn => ?_, ih hfs⟩
        obtain ⟨g, hg, rfl⟩ := List.mem_map.1 hn
        rcases mem_of_mem_putField hg with rfl | hg
        · exact Std.lt_of_le_of_ne hle (Ne.symm hne)
        · exact hf _ (List.mem_map_of_mem hg)

/-- Whatever the order of fields is, those of the object that they make are in order, and are among
them. -/
lemma ofFields_eq (fs : List (String × Ty)) :
    ∃ gs, ofFields fs = object gs ∧ (gs.map Prod.fst).Pairwise (· < ·) ∧ ∀ g ∈ gs, g ∈ fs := by
  have hfold : ∀ acc : List (String × Ty), (acc.map Prod.fst).Pairwise (· < ·) →
      ((fs.foldl (fun acc f => putField acc f.1 f.2) acc).map Prod.fst).Pairwise (· < ·) ∧
        ∀ g ∈ fs.foldl (fun acc f => putField acc f.1 f.2) acc, g ∈ acc ∨ g ∈ fs := by
    induction fs with
    | nil => exact fun acc hacc => ⟨hacc, fun g hg => .inl hg⟩
    | cons f fs ih =>
      intro acc hacc
      obtain ⟨hpairwise, hmem⟩ := ih (putField acc f.1 f.2) (pairwise_putField f.1 f.2 hacc)
      refine ⟨hpairwise, fun g hg => ?_⟩
      rcases hmem g hg with hg | hg
      · rcases mem_of_mem_putField hg with rfl | hg
        · exact .inr List.mem_cons_self
        · exact .inl hg
      · exact .inr (List.mem_cons_of_mem _ hg)
  obtain ⟨hpairwise, hmem⟩ := hfold [] (by simp)
  exact ⟨_, rfl, hpairwise, fun g hg => (hmem g hg).resolve_left (by simp)⟩

lemma everyLiteral_func {p : Double → Bool} {ps : List Ty} {r : Ty} :
    (func ps r).everyLiteral p = (ps.all (everyLiteral p) && r.everyLiteral p) := by
  rw [Bool.eq_iff_iff]
  simp [everyLiteral, every_func]

lemma everyLiteral_object {p : Double → Bool} {fs : List (String × Ty)} :
    (object fs).everyLiteral p = fs.all fun f => f.2.everyLiteral p := by
  rw [Bool.eq_iff_iff]
  simp [everyLiteral, every_object]

end Ty

namespace Wire

open Json

/-! ## Tagged values -/

section Tagged

variable {κ : Type} {f : Family κ} {v : Variant κ} {tag : String} {ms : List (String × Value)}

lemma splitMembers_eq (hms : ∀ m ∈ ms, m.1 ≠ tagName) (done : List (String × Value)) :
    f.splitMembers (some v) done ms = .ok (v, .members (done.reverse ++ ms)) := by
  induction ms generalizing done with
  | nil => simp [Family.splitMembers]
  | cons m ms ih =>
    obtain ⟨hm, hms⟩ := List.forall_mem_cons.1 hms
    rw [Family.splitMembers, if_neg hm, ih hms]
    simp

/-- The variant and the members of a tagged value in a tree. -/
lemma split_tagged (hv : f.ofTag tag = .ok v) (hms : ∀ m ∈ ms, m.1 ≠ tagName) :
    f.split (tagged tag ms) = .ok (v, .members ms) := by
  rw [tagged, Family.split, Family.splitMembers, if_pos rfl]
  exact bind_eq_ok.2 ⟨v, hv, splitMembers_eq hms []⟩

/-- A member of a tagged value in a text: the tag, or one that is kept for later. -/
def taggedMember (f : Family κ) (limit room : Nat)
    (state : Option (Variant κ) × List (String × Value)) (name : String) (cs : List Char) :
    Except Error ((Option (Variant κ) × List (String × Value)) × List Char) :=
  if name = tagName then
    match state.1 with
    | some _ => .error (.data (.duplicateField tagName))
    | none => do
      let (v, cs) ← afterColon f.readTag cs
      return ((some v, state.2), cs)
  else do
    let (v, cs) ← afterColon (readValue limit room) cs
    return ((state.1, (name, v) :: state.2), cs)

lemma read_brace {limit room : Nat} {cs : List Char} : f.read limit (room + 1) ('\x7b' :: cs) =
    (readMembers (readChars [] none) (taggedMember f limit room) limit true (none, []) cs).bind
      fun ((tag, done), rest) =>
        match tag with
        | some v => .ok ((v, .members done.reverse), rest)
        | none => .error (.data (.missingField tagName)) := rfl

lemma readTag_writeString (hv : f.ofTag tag = .ok v) (rest : List Char) :
    f.readTag (writeString tag ++ rest) = .ok (v, rest) := by
  have hread : readStringAs "variant identifier" (writeString tag ++ rest) = .ok (tag, rest) := by
    rw [writeString, List.cons_append, List.append_assoc]
    exact readChars_writeString tag rest
  refine bind_eq_ok.2 ⟨_, hread, ?_⟩
  dsimp only
  rw [hv]
  rfl

/-- What becomes of the state with a member, for a tag that stands for a variant. -/
def keepMember (v : Variant κ) (state : Option (Variant κ) × List (String × Value))
    (m : String × Value) : Except Error (Option (Variant κ) × List (String × Value)) :=
  if m.1 = tagName then
    match state.1 with
    | some _ => .error (.data (.duplicateField tagName))
    | none => .ok (some v, state.2)
  else .ok (state.1, m :: state.2)

lemma foldlM_keepMember (hms : ∀ m ∈ ms, m.1 ≠ tagName) (done : List (String × Value)) :
    ms.foldlM (keepMember v) (some v, done) = .ok (some v, ms.reverse ++ done) := by
  induction ms generalizing done with
  | nil => rfl
  | cons m ms ih =>
    obtain ⟨hm, hms⟩ := List.forall_mem_cons.1 hms
    rw [List.foldlM_cons, keepMember, if_neg hm, ok_bind, ih hms]
    simp

/-- The variant and the members of a tagged value in a text. -/
lemma read_tagged {limit room : Nat} {rest : List Char} (hv : f.ofTag tag = .ok v)
    (hms : ∀ m ∈ ms, m.1 ≠ tagName) (hnumbers : ∀ m ∈ ms, m.2.Numbers Number.ReadsBack)
    (hroom : (tagged tag ms).depth ≤ room) (hlimit : (write (tagged tag ms)).length ≤ limit) :
    f.read limit room (write (tagged tag ms) ++ rest) = .ok ((v, .members ms), rest) := by
  unfold tagged at hroom hlimit ⊢
  obtain ⟨room, rfl⟩ : ∃ r, room = r + 1 := ⟨room - 1, by rw [Value.depth] at hroom; omega⟩
  have hmember : ∀ state, ∀ m ∈ (tagName, .string tag) :: ms, ∀ rest, EndsNumber rest →
      taggedMember f limit room state (id m).1 (':' :: (write (id m).2 ++ rest)) =
        (keepMember v state m).map (·, rest) := by
    intro state m hm rest hrest
    rcases List.mem_cons.1 hm with rfl | hmem
    · obtain ⟨_ | w, done⟩ := state
      · exact bind_eq_ok.2 ⟨_, readTag_writeString hv rest, rfl⟩
      · rfl
    · have hdepth := Value.depth_lt_of_mem_object hm
      have hlength := (length_write_le_of_mem_object hm).trans hlimit
      have hvalue : readValue limit room (write m.2 ++ rest) = .ok (m.2, rest) :=
        readValue_write (hnumbers m hmem) (by omega) hlength hrest
      rw [id_eq, taggedMember, keepMember, if_neg (hms m hmem), if_neg (hms m hmem)]
      exact bind_eq_ok.2 ⟨_, hvalue, rfl⟩
  have hread := @readMembers_membersText _ _ limit rest _ _ _ _ (none, []) hmember
    (by simpa using hlimit)
  rw [List.map_id, List.foldlM_cons, keepMember, if_pos rfl, ok_bind, foldlM_keepMember hms]
    at hread
  rw [write_object, List.cons_append, read_brace, hread]
  simp [Except.map, Except.bind]

end Tagged

/-! ## Types in a tree -/

/-- The error for a number that is infinite or a NaN: `null` stands in its place. -/
def notFinite : DataError := .invalidType .null "f64"

/-- A value, or the error that something in it is not finite. -/
def checked {α : Type} (finite : Bool) (a : α) : Except DataError α :=
  if finite then .ok a else .error notFinite

lemma mapM_checked {α β : Type} {f : α → Except DataError β} {g : α → β} {p : α → Bool}
    {as : List α} (h : ∀ a ∈ as, f a = checked (p a) (g a)) :
    as.mapM f = checked (as.all p) (as.map g) := by
  induction as with
  | nil => rfl
  | cons a as ih =>
    obtain ⟨ha, has⟩ := List.forall_mem_cons.1 h
    rw [List.mapM_cons, ha, ih has, List.all_cons]
    cases p a <;> cases as.all p <;> rfl

/-- A value has the tag of a variant of a family, and its parts make up a result; its types are read
by the caller. -/
def Encodes {κ α : Type} (f : Family κ)
    (build : κ → List (String × Part) → Except DataError α) (type : Value → Except DataError Ty)
    (value : Value) (result : Except DataError α) : Prop :=
  ∃ tag v ms, value = tagged tag ms ∧ f.ofTag tag = .ok v ∧ (∀ m ∈ ms, m.1 ≠ tagName) ∧
    (partsOfBody type v (.members ms) >>= build v.kind) = result

lemma ofTyList_eq_map (ts : List Ty) : ofTyList ts = ts.map ofTy := by
  induction ts with
  | nil => rfl
  | cons t ts ih => rw [ofTyList, ih, List.map_cons]

lemma ofTyFields_eq_map (fs : List (String × Ty)) :
    ofTyFields fs = fs.map fun f => (f.1, ofTy f.2) := by
  induction fs with
  | nil => rfl
  | cons f fs ih => rw [ofTyFields, ih, List.map_cons]

/-- A part of a variant: how it is written, and what is read from it.  `finite` says whether all its
number literals are finite. -/
structure WrittenPart where
  name : String
  shape : Shape
  value : Value
  finite : Bool
  part : Part

namespace WrittenPart

/-- A number. -/
def number (name : String) (x : Double) : WrittenPart :=
  ⟨name, .number, .ofDouble x, x.isFinite, .number x⟩

/-- A text. -/
def text (name s : String) : WrittenPart := ⟨name, .text, .string s, true, .text s⟩

/-- A truth value. -/
def flag (name : String) (b : Bool) : WrittenPart := ⟨name, .flag, .bool b, true, .flag b⟩

/-- A type. -/
def type (name : String) (t : Ty) : WrittenPart := ⟨name, .type, ofTy t, t.finite, .type t⟩

/-- A list of types. -/
def types (name : String) (ts : List Ty) : WrittenPart :=
  ⟨name, .types, .array (ofTyList ts), ts.all Ty.finite, .types ts⟩

/-- The fields of an object. -/
def fields (name : String) (fs : List (String × Ty)) : WrittenPart :=
  ⟨name, .fields, .object (ofTyFields fs), fs.all fun f => f.2.finite, .fields fs⟩

end WrittenPart

section Parts

variable {read : Value → Except DataError Ty}

/-- A part is read from what is written for it; its types are read by the caller. -/
def WrittenPart.Reads (read : Value → Except DataError Ty) (w : WrittenPart) : Prop :=
  partOfValue read w.shape w.value = checked w.finite w.part

lemma reads_number (name : String) (x : Double) : (WrittenPart.number name x).Reads read := by
  unfold WrittenPart.Reads WrittenPart.number Value.ofDouble
  cases x.isFinite <;> rfl

lemma reads_text (name s : String) : (WrittenPart.text name s).Reads read := rfl

lemma reads_flag (name : String) (b : Bool) : (WrittenPart.flag name b).Reads read := rfl

lemma reads_type (name : String) {t : Ty} (h : read (ofTy t) = checked t.finite t) :
    (WrittenPart.type name t).Reads read := by
  rw [WrittenPart.Reads, WrittenPart.type, partOfValue, h]
  cases t.finite <;> rfl

lemma reads_types (name : String) {ts : List Ty}
    (h : ∀ t ∈ ts, read (ofTy t) = checked t.finite t) :
    (WrittenPart.types name ts).Reads read := by
  have hmap : ts.mapM (read ∘ ofTy) = checked (ts.all Ty.finite) (ts.map id) := mapM_checked h
  rw [WrittenPart.Reads, WrittenPart.types, ofTyList_eq_map, partOfValue, List.mapM_map, hmap,
    List.map_id]
  cases ts.all Ty.finite <;> rfl

lemma reads_fields (name : String) {fs : List (String × Ty)}
    (h : ∀ f ∈ fs, read (ofTy f.2) = checked f.2.finite f.2) :
    (WrittenPart.fields name fs).Reads read := by
  have hfield : ∀ f ∈ fs, ((fun m : String × Value => (read m.2).map fun t => (m.1, t)) ∘
      fun f => (f.1, ofTy f.2)) f = checked f.2.finite (id f) := by
    intro f hf
    rw [Function.comp_apply, h f hf]
    cases f.2.finite <;> rfl
  rw [WrittenPart.Reads, WrittenPart.fields, ofTyFields_eq_map, partOfValue, List.mapM_map,
    mapM_checked hfield, List.map_id]
  cases fs.all fun f => f.2.finite <;> rfl

/-- The parts of a variant are read one after the other, up to the first that is not finite. -/
lemma partsOfMembers_written {shapes : List (String × Shape)} {done : List (String × Part)}
    {ws : List WrittenPart} (hshapes : ∀ w ∈ ws, shapes.lookup w.name = some w.shape)
    (hreads : ∀ w ∈ ws, w.Reads read)
    (hnodup : (done.map Prod.fst ++ ws.map WrittenPart.name).Nodup) :
    partsOfMembers read shapes done (ws.map fun w => (w.name, w.value)) =
      checked (ws.all WrittenPart.finite) (done ++ ws.map fun w => (w.name, w.part)) := by
  induction ws generalizing done with
  | nil => simp [partsOfMembers, checked]
  | cons w ws ih =>
    obtain ⟨hshape, hshapes⟩ := List.forall_mem_cons.1 hshapes
    obtain ⟨hread, hreads⟩ := List.forall_mem_cons.1 hreads
    have hnew : done.lookup w.name = none := by
      rw [List.lookup_eq_none_iff]
      intro p hp
      rw [List.map_cons, List.nodup_append] at hnodup
      exact bne_iff_ne.2 (hnodup.2.2 _ (List.mem_map_of_mem hp) _ List.mem_cons_self).symm
    rw [List.map_cons, partsOfMembers, hshape]
    dsimp only
    rw [hnew, hread, List.all_cons]
    cases w.finite with
    | false => rfl
    | true =>
      have htail := @ih (done ++ [(w.name, w.part)]) hshapes hreads (by simpa using hnodup)
      simpa [checked, ok_bind] using htail

/-- A tagged value with all parts of its variant, in any order. -/
lemma encodes_tagged {κ α : Type} {f : Family κ}
    {build : κ → List (String × Part) → Except DataError α} {tag : String} {v : Variant κ} {a : α}
    {finite : Bool} (ws : List WrittenPart) (htag : f.ofTag tag = .ok v)
    (hshapes : ws.map (fun w => v.parts.lookup w.name) = ws.map fun w => some w.shape)
    (hnodup : (tagName :: ws.map WrittenPart.name).Nodup) (hreads : ∀ w ∈ ws, w.Reads read)
    (hbuild : build v.kind (ws.map fun w => (w.name, w.part)) = .ok a)
    (hfinite : finite = ws.all WrittenPart.finite) :
    Encodes f build read (tagged tag (ws.map fun w => (w.name, w.value))) (checked finite a) := by
  obtain ⟨htagged, hnodup⟩ := List.nodup_cons.1 hnodup
  refine ⟨tag, v, _, rfl, htag, ?_, ?_⟩
  · intro m hm hname
    obtain ⟨w, hw, rfl⟩ := List.mem_map.1 hm
    exact htagged (hname ▸ List.mem_map_of_mem hw)
  · have hparts := partsOfMembers_written (List.map_inj_left.1 hshapes) hreads
      (show (([] : List (String × Part)).map Prod.fst ++ ws.map WrittenPart.name).Nodup from hnodup)
    rw [partsOfBody, hparts, hfinite, List.nil_append]
    cases ws.all WrittenPart.finite with
    | false => rfl
    | true => exact hbuild

lemma depth_lt_func_param {p : Ty} {ps : List Ty} (hp : p ∈ ps) (r : Ty) :
    (ofTy p).depth < (ofTy (.func ps r)).depth := by
  have hmem : ofTy p ∈ ofTyList ps := by
    rw [ofTyList_eq_map]
    exact List.mem_map_of_mem hp
  refine (Value.depth_lt_of_mem_array hmem).trans ?_
  exact Value.depth_lt_of_mem_object (m := ("params", .array (ofTyList ps))) (by simp)

lemma depth_lt_func_result (ps : List Ty) (r : Ty) :
    (ofTy r).depth < (ofTy (.func ps r)).depth :=
  Value.depth_lt_of_mem_object (m := ("returns", ofTy r)) (by simp)

lemma depth_lt_object {f : String × Ty} {fs : List (String × Ty)} (hf : f ∈ fs) :
    (ofTy f.2).depth < (ofTy (.object fs)).depth := by
  have hmem : (f.1, ofTy f.2) ∈ ofTyFields fs := by
    rw [ofTyFields_eq_map]
    exact List.mem_map_of_mem hf
  refine (Value.depth_lt_of_mem_object hmem).trans ?_
  exact Value.depth_lt_of_mem_object (m := ("fields", .object (ofTyFields fs))) (by simp)

/-- A type is read from its value if the types inside it are. -/
lemma encodes_ofTy {t : Ty} (hordered : t.ordered = true)
    (hparts : ∀ u : Ty, u.ordered = true → (ofTy u).depth < (ofTy t).depth →
      read (ofTy u) = checked u.finite u) :
    Encodes typeFamily buildTy read (ofTy t) (checked t.finite t) := by
  cases t with
  | number => exact encodes_tagged [] rfl rfl (by simp) (by simp) rfl rfl
  | string => exact encodes_tagged [] rfl rfl (by simp) (by simp) rfl rfl
  | boolean => exact encodes_tagged [] rfl rfl (by simp) (by simp) rfl rfl
  | numberLit x =>
    have hfinite : (Ty.numberLit x).finite = x.isFinite := rfl
    exact encodes_tagged [.number "value" x] rfl rfl (by simp [WrittenPart.number, tagName])
      (by simpa using reads_number _ x) rfl (by simp [WrittenPart.number, hfinite])
  | stringLit s =>
    exact encodes_tagged [.text "value" s] rfl rfl (by simp [WrittenPart.text, tagName])
      (by simpa using reads_text _ s) rfl rfl
  | booleanLit b =>
    exact encodes_tagged [.flag "value" b] rfl rfl (by simp [WrittenPart.flag, tagName])
      (by simpa using reads_flag _ b) rfl rfl
  | var n =>
    exact encodes_tagged [.text "name" n] rfl rfl (by simp [WrittenPart.text, tagName])
      (by simpa using reads_text _ n) rfl rfl
  | func ps r =>
    obtain ⟨-, hps, hr⟩ := Ty.every_func.1 hordered
    have hparams := reads_types "params" fun p hp =>
      hparts p (hps p hp) (depth_lt_func_param hp r)
    have hreturns := reads_type "returns" (hparts r hr (depth_lt_func_result ps r))
    have hfinite : (Ty.func ps r).finite = (ps.all Ty.finite && r.finite) := Ty.everyLiteral_func
    exact encodes_tagged [.types "params" ps, .type "returns" r] rfl rfl
      (by simp [WrittenPart.types, WrittenPart.type, tagName]) (by simpa using ⟨hparams, hreturns⟩)
      rfl (by simp [WrittenPart.types, WrittenPart.type, hfinite])
  | object fs =>
    obtain ⟨hfs, hfields⟩ := Ty.every_object.1 hordered
    have hpart := reads_fields "fields" fun f hf => hparts f.2 (hfields f hf) (depth_lt_object hf)
    have hbuild := Ty.ofFields_of_pairwise (of_decide_eq_true hfs)
    have hfinite : (Ty.object fs).finite = fs.all fun f => f.2.finite := Ty.everyLiteral_object
    exact encodes_tagged [.fields "fields" fs] rfl rfl (by simp [WrittenPart.fields, tagName])
      (by simpa using hpart) (congrArg Except.ok hbuild) (by simp [WrittenPart.fields, hfinite])

end Parts

lemma Encodes.split {κ α : Type} {f : Family κ}
    {build : κ → List (String × Part) → Except DataError α} {type : Value → Except DataError Ty}
    {value : Value} {result : Except DataError α} (h : Encodes f build type value result) :
    (f.split value >>= fun found => partsOfBody type found.1 found.2 >>= build found.1.kind) =
      result := by
  obtain ⟨tag, v, ms, rfl, hv, hms, hresult⟩ := h
  rw [split_tagged hv hms, ok_bind]
  exact hresult

/-- A type is read back from its value; a literal that is not finite is an error. -/
lemma tyOfValueWithin_ofTy {t : Ty} (hordered : t.ordered = true) {depth : Nat}
    (hdepth : (ofTy t).depth < depth) :
    tyOfValueWithin depth (ofTy t) = checked t.finite t := by
  induction depth generalizing t with
  | zero => cases hdepth
  | succ depth ih =>
    have hencodes : Encodes typeFamily buildTy (tyOfValueWithin depth) (ofTy t)
        (checked t.finite t) :=
      encodes_ofTy hordered fun u hu hlt => ih hu (by omega)
    exact hencodes.split

lemma tyOfValue_ofTy {t : Ty} (hordered : t.ordered = true) :
    tyOfValue (ofTy t) = checked t.finite t :=
  tyOfValueWithin_ofTy hordered (Nat.lt_succ_self _)

/-! ## Types and constraints in a text -/

/-- A value of a family in a text. -/
def readEncoded {κ α : Type} (f : Family κ)
    (build : κ → List (String × Part) → Except DataError α) (limit room : Nat) (cs : List Char) :
    Except Error (α × List Char) := do
  let ((variant, body), rest) ← f.read limit room cs
  let parts ← liftData (partsOfBody tyOfValue variant body)
  return (← liftData (build variant.kind parts), rest)

lemma Encodes.read {κ α : Type} {f : Family κ}
    {build : κ → List (String × Part) → Except DataError α} {value : Value}
    {result : Except DataError α} (h : Encodes f build tyOfValue value result)
    (hnumbers : value.Numbers Number.ReadsBack) {limit room : Nat} (hroom : value.depth ≤ room)
    (hlimit : (write value).length ≤ limit) (rest : List Char) :
    readEncoded f build limit room (write value ++ rest) = (liftData result).map (·, rest) := by
  obtain ⟨tag, v, ms, rfl, hv, hms, hresult⟩ := h
  have hmembers : ∀ m ∈ ms, m.2.Numbers Number.ReadsBack := by
    cases hnumbers with
    | object hmembers => exact fun m hm => hmembers m (List.mem_cons_of_mem _ hm)
  rw [readEncoded, read_tagged hv hms hmembers hroom hlimit, ok_bind, ← hresult]
  dsimp only
  cases hparts : partsOfBody tyOfValue v (.members ms) with
  | error e => rfl
  | ok parts =>
    rw [ok_bind, liftData, Except.mapError, ok_bind]
    cases build v.kind parts <;> rfl

/-- Whether the finite literals of a type read back. -/
def literalsReadBack : Ty → Bool := Ty.everyLiteral fun x => !x.isFinite || readsBack x

lemma numbers_ofDouble {x : Double} (h : (!x.isFinite || readsBack x) = true) :
    (Value.ofDouble x).Numbers Number.ReadsBack := by
  unfold Value.ofDouble
  split
  · rename_i hx
    rw [hx] at h
    exact .number (Number.readsBack_double h)
  · exact .null

lemma numbers_tagged {P : Number → Prop} {tag : String} {ms : List (String × Value)}
    (hms : ∀ m ∈ ms, m.2.Numbers P) : (tagged tag ms).Numbers P :=
  .object (List.forall_mem_cons.2 ⟨.string _, hms⟩)

lemma numbers_ofTyList {P : Number → Prop} {ts : List Ty} (h : ∀ t ∈ ts, (ofTy t).Numbers P) :
    (Value.array (ofTyList ts)).Numbers P := by
  refine .array fun v hv => ?_
  rw [ofTyList_eq_map] at hv
  obtain ⟨t, ht, rfl⟩ := List.mem_map.1 hv
  exact h t ht

lemma numbers_ofTy {t : Ty} (h : literalsReadBack t = true) :
    (ofTy t).Numbers Number.ReadsBack := by
  induction t using Ty.induction with
  | constant t hconst =>
    cases t with
    | numberLit x => exact numbers_tagged (by simpa using numbers_ofDouble h)
    | number => exact numbers_tagged (by simp)
    | string => exact numbers_tagged (by simp)
    | boolean => exact numbers_tagged (by simp)
    | stringLit s => exact numbers_tagged (by simpa using .string s)
    | booleanLit b => exact numbers_tagged (by simpa using .bool b)
    | var n => cases hconst
    | func ps r => cases hconst
    | object fs => cases hconst
  | var n => exact numbers_tagged (by simpa using .string n)
  | func ps r ihps ihr =>
    obtain ⟨hps, hr⟩ : (∀ p ∈ ps, literalsReadBack p = true) ∧ literalsReadBack r = true := by
      simpa [literalsReadBack, Ty.everyLiteral_func] using h
    have hparams := numbers_ofTyList fun p hp => ihps p hp (hps p hp)
    exact numbers_tagged (by simpa using ⟨hparams, ihr hr⟩)
  | object fs ih =>
    have hfs : ∀ f ∈ fs, literalsReadBack f.2 = true := by
      simpa [literalsReadBack, Ty.everyLiteral_object] using h
    have hfields : (Value.object (ofTyFields fs)).Numbers Number.ReadsBack := by
      refine .object fun m hm => ?_
      rw [ofTyFields_eq_map] at hm
      obtain ⟨f, hf, rfl⟩ := List.mem_map.1 hm
      exact ih f hf (hfs f hf)
    exact numbers_tagged (by simpa using hfields)

/-- A type that can be exchanged: its objects are in order, and its finite literals read back. -/
structure Exchangeable (t : Ty) : Prop where
  ordered : t.ordered = true
  literals : literalsReadBack t = true

/-- A type is read back from a text. -/
lemma readTy_write {t : Ty} (h : Exchangeable t) {limit room : Nat} (hroom : (ofTy t).depth ≤ room)
    (hlimit : (write (ofTy t)).length ≤ limit) (rest : List Char) :
    readTy limit room (write (ofTy t) ++ rest) = (liftData (checked t.finite t)).map (·, rest) :=
  (encodes_ofTy h.ordered fun _ hu _ => tyOfValue_ofTy hu).read (numbers_ofTy h.literals) hroom
    hlimit rest

/-- Whether no literal of a constraint is infinite or a NaN. -/
def finiteConstraint (c : Constraint) : Bool := c.types.all Ty.finite

lemma encodes_ofConstraint {c : Constraint} (h : ∀ t ∈ c.types, t.ordered = true) :
    Encodes constraintFamily buildConstraint tyOfValue (ofConstraint c)
      (checked (finiteConstraint c) c) := by
  have hread : ∀ t ∈ c.types, ∀ name, (WrittenPart.type name t).Reads tyOfValue :=
    fun t ht name => reads_type name (tyOfValue_ofTy (h t ht))
  cases c with
  | equals l r =>
    simp only [Constraint.types, List.forall_mem_cons] at hread
    exact encodes_tagged [.type "left" l, .type "right" r] rfl rfl
      (by simp [WrittenPart.type, tagName]) (by simp [hread]) rfl rfl
  | apply f args r =>
    have hargs : (WrittenPart.types "args" args).Reads tyOfValue := reads_types "args" fun t ht =>
      tyOfValue_ofTy (h t (by simp [Constraint.types, ht]))
    simp only [Constraint.types, List.forall_mem_cons] at hread
    refine encodes_tagged [.type "func" f, .types "args" args, .type "ret" r] rfl rfl
      (by simp [WrittenPart.type, WrittenPart.types, tagName]) (by simp [hread, hargs]) rfl ?_
    -- the result is written last, and stands before the arguments among the types
    simp [finiteConstraint, Constraint.types, WrittenPart.type, WrittenPart.types, Bool.and_comm]
  | concat a b r =>
    simp only [Constraint.types, List.forall_mem_cons] at hread
    exact encodes_tagged [.type "first" a, .type "second" b, .type "ret" r] rfl rfl
      (by simp [WrittenPart.type, tagName]) (by simp [hread]) rfl rfl
  | index o f r =>
    simp only [Constraint.types, List.forall_mem_cons] at hread
    exact encodes_tagged [.type "obj" o, .type "field" f, .type "ret" r] rfl rfl
      (by simp [WrittenPart.type, tagName]) (by simp [hread]) rfl rfl

lemma numbers_ofConstraint {c : Constraint} (h : ∀ t ∈ c.types, literalsReadBack t = true) :
    (ofConstraint c).Numbers Number.ReadsBack := by
  have htypes : ∀ t ∈ c.types, (ofTy t).Numbers Number.ReadsBack :=
    fun t ht => numbers_ofTy (h t ht)
  cases c with
  | apply f args r =>
    simp only [Constraint.types, List.forall_mem_cons] at htypes
    obtain ⟨hf, hr, hargs⟩ := htypes
    exact numbers_tagged (by simpa using ⟨hf, numbers_ofTyList hargs, hr⟩)
  | _ =>
    -- the other constraints have types only, which are written in their order
    exact numbers_tagged (by simpa [Constraint.types] using htypes)

/-- A constraint is read back from a text. -/
lemma readConstraint_write {c : Constraint} (h : ∀ t ∈ c.types, Exchangeable t) {limit room : Nat}
    (hroom : (ofConstraint c).depth ≤ room) (hlimit : (write (ofConstraint c)).length ≤ limit)
    (rest : List Char) :
    readConstraint limit room (write (ofConstraint c) ++ rest) =
      (liftData (checked (finiteConstraint c) c)).map (·, rest) :=
  (encodes_ofConstraint fun t ht => (h t ht).ordered).read
    (numbers_ofConstraint fun t ht => (h t ht).literals) hroom hlimit rest

/-! ## Lists of constraints and substitutions -/

lemma mapM_liftData {α β : Type} (f : α → Except DataError β) (as : List α) :
    as.mapM (fun a => liftData (f a)) = liftData (as.mapM f) := by
  induction as with
  | nil => rfl
  | cons a as ih =>
    rw [List.mapM_cons, List.mapM_cons, ih]
    cases f a with
    | error e => rfl
    | ok b => cases as.mapM f <;> rfl

/-- A list of constraints is read back from a text. -/
lemma readConstraints_write {cs : List Constraint} (h : ∀ c ∈ cs, ∀ t ∈ c.types, Exchangeable t)
    {limit room : Nat} (hroom : (ofConstraints cs).depth ≤ room)
    (hlimit : (write (ofConstraints cs)).length ≤ limit) (rest : List Char) :
    readList (readConstraint limit) limit room (write (ofConstraints cs) ++ rest) =
      (liftData (checked (cs.all finiteConstraint) cs)).map (·, rest) := by
  have hitem : ∀ c ∈ cs, ∀ room rest, (ofConstraint c).depth ≤ room → EndsNumber rest →
      readConstraint limit room (write (ofConstraint c) ++ rest) =
        (liftData (checked (finiteConstraint c) (id c))).map (·, rest) := by
    intro c hc room rest hroom _
    have hlength := length_write_le_of_mem_array (List.mem_map_of_mem (f := ofConstraint) hc)
    exact readConstraint_write (h c hc) hroom (hlength.trans hlimit) rest
  rw [ofConstraints, readList_write hitem hroom hlimit, mapM_liftData,
    mapM_checked fun _ _ => rfl, List.map_id]

/-- What becomes of a substitution with a binding that is read. -/
def putChecked (s : Subst) (b : Name × Ty) : Except Error Subst :=
  (liftData (checked b.2.finite b.2)).map (s.put b.1)

/-- Bindings with names of their own go to the end one by one. -/
lemma foldlM_putChecked {bs : List (Name × Ty)} {s : Subst}
    (h : ((s.bindings ++ bs).map Prod.fst).Nodup) :
    bs.foldlM putChecked s =
      liftData (checked (bs.all fun b => b.2.finite) ⟨s.bindings ++ bs, h⟩) := by
  induction bs generalizing s with
  | nil => simp [checked, liftData, Except.mapError, pure, Except.pure]
  | cons b bs ih =>
    have hput : (s.put b.1 b.2).bindings = s.bindings ++ [b] := by
      refine Subst.putBinding_of_not_mem ?_
      rw [List.map_append, List.map_cons, List.nodup_append] at h
      exact fun hmem => h.2.2 _ hmem _ List.mem_cons_self rfl
    rw [List.foldlM_cons, List.all_cons, putChecked]
    cases hb : b.2.finite with
    | false => rfl
    | true =>
      have hnodup : (((s.put b.1 b.2).bindings ++ bs).map Prod.fst).Nodup := by
        simpa [hput] using h
      have htail := ih hnodup
      simp only [hput, List.append_assoc, List.singleton_append] at htail
      exact htail

/-- A binding in a text. -/
def readBinding (limit room : Nat) (s : Subst) (name : String) (cs : List Char) :
    Except Error (Subst × List Char) := do
  let (t, cs) ← afterColon (readTy limit room) cs
  return (s.put name t, cs)

lemma readSubst_brace {limit room : Nat} {cs : List Char} :
    readSubst limit (room + 1) ('\x7b' :: cs) =
      readMembers (readChars [] none) (readBinding limit room) limit true .empty cs := rfl

/-- A substitution is read back from a text. -/
lemma readSubst_write {s : Subst} (h : ∀ b ∈ s.bindings, Exchangeable b.2) {limit room : Nat}
    (hroom : (ofSubst s).depth ≤ room) (hlimit : (write (ofSubst s)).length ≤ limit)
    (rest : List Char) :
    readSubst limit room (write (ofSubst s) ++ rest) =
      (liftData (checked (s.bindings.all fun b => b.2.finite) s)).map (·, rest) := by
  unfold ofSubst at hroom hlimit ⊢
  rw [ofTyFields_eq_map] at hroom hlimit ⊢
  obtain ⟨room, rfl⟩ : ∃ r, room = r + 1 := ⟨room - 1, by rw [Value.depth] at hroom; omega⟩
  have hmember : ∀ acc, ∀ b ∈ s.bindings, ∀ rest, EndsNumber rest →
      readBinding limit room acc b.1 (':' :: (write (ofTy b.2) ++ rest)) =
        (putChecked acc b).map (·, rest) := by
    intro acc b hb rest _
    have hmem := List.mem_map_of_mem (f := fun b : Name × Ty => (b.1, ofTy b.2)) hb
    have hdepth := Nat.le_of_lt_succ ((Value.depth_lt_of_mem_object hmem).trans_le hroom)
    have hlength := (length_write_le_of_mem_object hmem).trans hlimit
    have htype := readTy_write (h b hb) hdepth hlength rest
    rw [readBinding, afterColon_colon, htype, putChecked]
    cases b.2.finite <;> rfl
  rw [write_object, List.cons_append, readSubst_brace, readMembers_membersText hmember hlimit,
    foldlM_putChecked (s := .empty) s.nodup]
  rfl

end Wire

end TypeSolver
