import Mathlib.Data.List.TakeWhile
import PlanService.Api.Service
import PlanService.Proofs.Http.PercentCoding
import PlanService.Proofs.Text.Split

/-! # Plain paths

Letters, digits and hyphens mean themselves wherever they stand in an address: nothing is
encoded on the way out and nothing decoded on the way in.  A path of such characters and slashes
below the address of a server is asked for as it is written (`parse_plain`, `target_plain`), and
a plain name in it is read as it is (`readName_plain`).
-/

namespace PlanService

namespace Http

/-! ## Plain characters -/

/-- Whether a character means itself wherever it stands in an address. -/
def isPlain (c : Char) : Bool := c.isAlphanum || c == '-'

theorem ne_of_isPlain {c other : Char} (plain : isPlain c = true) (special : isPlain other = false) :
    c ≠ other := by
  rintro rfl
  rw [plain] at special
  cases special

theorem toNat_lt_of_isPlain {c : Char} (plain : isPlain c = true) : c.toNat < 128 := by
  have below {last : Char} (upTo : c.val ≤ last.val) (ascii : last.toNat < 128) : c.toNat < 128 :=
    Nat.lt_of_le_of_lt (UInt32.le_iff_toNat_le.mp upTo) ascii
  have ofRange {first last : Char} (ascii : last.toNat < 128)
      (inRange : (decide (c.val ≥ first.val) && decide (c.val ≤ last.val)) = true) : c.toNat < 128 :=
    below (of_decide_eq_true (Bool.and_eq_true_iff.mp inRange).2) ascii
  rcases Bool.or_eq_true_iff.mp plain with alphanumeric | hyphen
  · rcases Bool.or_eq_true_iff.mp (show (c.isAlpha || c.isDigit) = true from alphanumeric) with alpha | digit
    · rcases Bool.or_eq_true_iff.mp (show (c.isUpper || c.isLower) = true from alpha) with upper | lower
      · exact below (of_decide_eq_true upper).2 (by decide)
      · exact ofRange (by decide) lower
    · exact ofRange (by decide) digit
  · rw [beq_iff_eq.mp hyphen]
    decide

/-- What is decided of all characters of ASCII holds of a plain one. -/
theorem of_isPlain {P : Char → Prop} (decided : ∀ n < 128, isPlain (Char.ofNat n) = true → P (Char.ofNat n))
    {c : Char} (plain : isPlain c = true) : P c := by
  have ascii := decided c.toNat (toNat_lt_of_isPlain plain)
  rw [Char.ofNat_toNat] at ascii
  exact ascii plain

theorem encodeChar_of_isPlain {c : Char} (plain : isPlain c = true) :
    Text.Utf8.encodeChar c = [c.toNat.toUInt8] := by
  rw [Text.Utf8.encodeChar, if_pos (toNat_lt_of_isPlain plain)]

theorem isPathSafe_of_isPlain {c : Char} (plain : isPlain c = true) :
    Url.isPathSafe c.toNat.toUInt8 = true :=
  of_isPlain (P := fun c => Url.isPathSafe c.toNat.toUInt8 = true) (by decide) plain

theorem ofNat_byte_of_isPlain {c : Char} (plain : isPlain c = true) :
    Char.ofNat c.toNat.toUInt8.toNat = c :=
  of_isPlain (P := fun c => Char.ofNat c.toNat.toUInt8.toNat = c) (by decide) plain

theorem gt_blank_of_isPlain {c : Char} (plain : isPlain c = true) : 32 < c.toNat :=
  of_isPlain (P := fun c => 32 < c.toNat) (by decide) plain

/-! ## Writing a path -/

namespace Url

theorem encodeText_plain {cs : List Char} (plain : ∀ c ∈ cs, isPlain c = true) :
    encodeText isPathSafe cs = cs := by
  induction cs with
  | nil => rfl
  | cons c cs ih =>
    have plainFirst := plain c List.mem_cons_self
    have rest := ih fun d member => plain d (List.mem_cons_of_mem _ member)
    rw [encodeText, Text.Utf8.encode, List.flatMap_cons, encodeChar_of_isPlain plainFirst, List.singleton_append,
      PercentCoding.encode, List.flatMap_cons, if_pos (isPathSafe_of_isPlain plainFirst), List.singleton_append,
      List.map_cons, ofNat_byte_of_isPlain plainFirst]
    exact congrArg (c :: ·) rest

theorem plainDots_plain {cs : List Char} (plain : ∀ c ∈ cs, isPlain c = true) : plainDots cs = cs := by
  induction cs with
  | nil => rfl
  | cons c cs ih =>
    have notEscape : c ≠ '%' := ne_of_isPlain (plain c List.mem_cons_self) rfl
    rw [plainDots, ih fun d member => plain d (List.mem_cons_of_mem _ member)]
    all_goals exact fun _ same => absurd same notEscape

/-- Whether a piece means one of the steps that lead elsewhere than down. -/
def isDots (piece : List Char) : Bool := plainDots piece = ['.'] ∨ plainDots piece = ['.', '.']

theorem ofPiece_of_not_dots {piece : List Char} (straight : isDots piece = false) :
    Step.ofPiece piece = .down (encodeText isPathSafe piece) := by
  simp only [isDots, decide_eq_false_iff_not, not_or] at straight
  rw [Step.ofPiece, if_neg straight.1, if_neg straight.2]

theorem isDots_plain {piece : List Char} (plain : ∀ c ∈ piece, isPlain c = true) : isDots piece = false := by
  have noDot (more : List Char) : piece ≠ '.' :: more := by
    rintro rfl
    cases plain '.' List.mem_cons_self
  simp [isDots, plainDots_plain plain, noDot]

/-- Pieces that lead down are followed one after another. -/
theorem resolve_straight (done : List (List Char)) {pieces : List (List Char)}
    (straight : ∀ piece ∈ pieces, isDots piece = false) :
    resolve done pieces = done ++ pieces.map (encodeText isPathSafe) := by
  induction pieces generalizing done with
  | nil => rw [resolve, List.map_nil, List.append_nil]
  | cons piece rest ih =>
    have down := ofPiece_of_not_dots (straight piece List.mem_cons_self)
    cases rest with
    | nil => rw [resolve, down, List.map_singleton]
    | cons next rest =>
      have below := ih (done ++ [encodeText isPathSafe piece]) fun piece member =>
        straight piece (List.mem_cons_of_mem _ member)
      rw [← List.append_cons] at below
      rw [resolve, down]
      · exact below
      · exact nofun

theorem resolve_plain (done : List (List Char)) {pieces : List (List Char)}
    (plain : ∀ piece ∈ pieces, ∀ c ∈ piece, isPlain c = true) : resolve done pieces = done ++ pieces := by
  rw [resolve_straight done fun piece member => isDots_plain (plain piece member)]
  exact congrArg (done ++ ·)
    ((List.map_congr_left fun piece member => encodeText_plain (plain piece member)).trans (List.map_id _))

/-! ## Reading an address -/

/-- What is left of the end of an address: blanks there, and tabs and line breaks, are dropped. -/
def tidy (cs : List Char) : List Char :=
  (cs.reverse.dropWhile fun c => decide (c.toNat ≤ 32)).reverse.filter fun c =>
    decide (c ≠ '\t' ∧ c ≠ '\n' ∧ c ≠ '\r')

theorem dropWhile_blank_of_solid {cs : List Char} (solid : ∀ c ∈ cs, 32 < c.toNat) :
    cs.dropWhile (fun c => decide (c.toNat ≤ 32)) = cs :=
  List.dropWhile_eq_self_iff.mpr fun _ blank =>
    Nat.not_le.mpr (solid _ (List.getElem_mem _)) (of_decide_eq_true blank)

/-- What is before the end is left as it is. -/
theorem tidy_append {front : List Char} (solid : ∀ c ∈ front, 32 < c.toNat) (cs : List Char) :
    tidy (front ++ cs) = front ++ tidy cs := by
  have frontStays := dropWhile_blank_of_solid fun c member => solid c (List.mem_reverse.mp member)
  have frontKept : front.filter (fun c => decide (c ≠ '\t' ∧ c ≠ '\n' ∧ c ≠ '\r')) = front := by
    refine List.filter_eq_self.mpr fun c member => ?_
    have := solid c member
    simp only [decide_eq_true_eq]
    refine ⟨?_, ?_, ?_⟩ <;> (rintro rfl; contradiction)
  have backwards : (cs.reverse ++ front.reverse).dropWhile (fun c => decide (c.toNat ≤ 32)) =
      cs.reverse.dropWhile (fun c => decide (c.toNat ≤ 32)) ++ front.reverse := by
    rw [List.dropWhile_append, frontStays]
    split
    next nothing => rw [List.isEmpty_iff.mp nothing, List.nil_append]
    next => rfl
  rw [tidy, List.reverse_append, backwards, List.reverse_append, List.reverse_reverse, List.filter_append, frontKept]
  rfl

theorem tidy_solid {cs : List Char} (solid : ∀ c ∈ cs, 32 < c.toNat) : tidy cs = cs := by
  have whole := tidy_append solid []
  rwa [List.append_nil, show tidy [] = [] from rfl, List.append_nil] at whole

theorem clean_of_solid_start {c : Char} (solid : 32 < c.toNat) (cs : List Char) : clean (c :: cs) = tidy (c :: cs) := by
  have stays : (c :: cs).dropWhile (fun c => decide (c.toNat ≤ 32)) = c :: cs :=
    List.dropWhile_cons_of_neg (by simpa using solid)
  simp only [clean, stays]
  rfl

/-- A path of plain characters and slashes; it is given without its first slash. -/
def IsPlainPath (rest : List Char) : Prop := ∀ c ∈ rest, isPlain c = true ∨ c = '/'

instance : DecidablePred IsPlainPath := fun rest =>
  decidable_of_iff (rest.all fun c => isPlain c || c == '/') (by simp [IsPlainPath])

theorem ne_of_isPlainPath {rest : List Char} (plain : IsPlainPath rest) {other : Char}
    (special : isPlain other = false) (noSlash : '/' ≠ other) : ∀ c ∈ '/' :: rest, c ≠ other := by
  intro c member
  rcases List.mem_cons.mp member with rfl | member
  · exact noSlash
  · rcases plain c member with isPlain | rfl
    · exact ne_of_isPlain isPlain special
    · exact noSlash

theorem not_cut {rest : List Char} (plain : IsPlainPath rest) :
    ∀ c ∈ '/' :: rest, decide (c ≠ '?' ∧ c ≠ '#') = true := fun c member =>
  decide_eq_true ⟨ne_of_isPlainPath plain rfl (by decide) c member, ne_of_isPlainPath plain rfl (by decide) c member⟩

theorem takeWhile_uncut {rest : List Char} (plain : IsPlainPath rest) :
    ('/' :: rest).takeWhile (fun c => decide (c ≠ '?' ∧ c ≠ '#')) = '/' :: rest :=
  List.takeWhile_eq_self_iff.mpr (not_cut plain)

theorem readPath_plain {rest : List Char} (plain : IsPlainPath rest) :
    readPath ('/' :: rest) = Text.split '/' rest := by
  have noBackslash : ∀ c ∈ '/' :: rest, c ≠ '\\' := ne_of_isPlainPath plain rfl (by decide)
  have path : (('/' :: rest).map fun c => if c = '\\' then '/' else c) = '/' :: rest :=
    (List.map_congr_left fun c member => if_neg (noBackslash c member)).trans (List.map_id _)
  rw [readPath, takeWhile_uncut plain]
  simp only [path, List.drop_succ_cons, List.drop_zero]
  refine (resolve_plain [] fun piece isPiece c member => ?_).trans (List.nil_append _)
  obtain ⟨inRest, noSlash⟩ := Text.mem_of_mem_split isPiece member
  exact (plain c inRest).resolve_right noSlash

theorem readQuery_plain {rest : List Char} (plain : IsPlainPath rest) : readQuery ('/' :: rest) = none := by
  have uncut : ('/' :: rest).dropWhile (fun c => decide (c ≠ '?' ∧ c ≠ '#')) = [] := by
    rw [← List.append_nil ('/' :: rest), List.dropWhile_append_of_pos (not_cut plain), List.dropWhile_nil]
  rw [readQuery, uncut]

/-- The characters of an address between the scheme and the path. -/
def IsAuthority (cs : List Char) : Prop := ∀ c ∈ cs, 32 < c.toNat ∧ endsAuthority c = false

instance : DecidablePred IsAuthority := fun cs =>
  decidable_of_iff (cs.all fun c => 32 < c.toNat && !endsAuthority c) (by simp [IsAuthority])

/-- What is asked for below the address of a server. -/
theorem parse_below {authority : List Char} {host : String} {port : Nat} (isAuthority : IsAuthority authority)
    (server : readAuthority authority = some (host, port)) (cs : List Char) :
    parse (String.ofList ("http://".toList ++ authority ++ '/' :: cs)) =
      some { host, port, pieces := readPath ('/' :: tidy cs), query := readQuery ('/' :: tidy cs) } := by
  have solid : ∀ c ∈ "http://".toList ++ authority ++ ['/'], 32 < c.toNat :=
    List.forall_mem_append.mpr
      ⟨List.forall_mem_append.mpr ⟨by simp, fun c member => (isAuthority c member).1⟩, by simp⟩
  have cleaned : clean ("http://".toList ++ authority ++ '/' :: cs) =
      "http://".toList ++ authority ++ '/' :: tidy cs := by
    rw [List.append_cons _ _ cs, List.append_cons _ _ (tidy cs)]
    exact (clean_of_solid_start (by decide) _).trans (tidy_append solid cs)
  have afterScheme :
      ('/' :: '/' :: (authority ++ '/' :: tidy cs)).dropWhile (fun c => decide (c = '/' ∨ c = '\\')) =
        authority ++ '/' :: tidy cs := by
    cases authority with
    | nil => cases server
    | cons c cs =>
      have inside := (isAuthority c List.mem_cons_self).2
      simp only [endsAuthority, Bool.or_eq_false_iff, beq_eq_false_iff_ne] at inside
      simp [inside]
  have goesOn : ∀ c ∈ authority, (!endsAuthority c) = true := fun c member => by simp [(isAuthority c member).2]
  have cut : (authority ++ '/' :: tidy cs).takeWhile (!endsAuthority ·) = authority := by
    rw [List.takeWhile_append_of_pos goesOn]
    simp [endsAuthority]
  have left : (authority ++ '/' :: tidy cs).dropWhile (!endsAuthority ·) = '/' :: tidy cs := by
    rw [List.dropWhile_append_of_pos goesOn]
    rfl
  have scheme : "http://".toList ++ authority ++ '/' :: tidy cs =
      'h' :: 't' :: 't' :: 'p' :: ':' :: '/' :: '/' :: (authority ++ '/' :: tidy cs) := by
    rw [List.append_assoc]
    rfl
  rw [parse, String.toList_ofList, cleaned, scheme]
  simp only [List.drop_succ_cons, List.drop_zero, afterScheme, cut, left, server]
  rfl

/-- A plain path below the address of a server is read as it is written. -/
theorem parse_plain {authority rest : List Char} {host : String} {port : Nat}
    (isAuthority : IsAuthority authority) (server : readAuthority authority = some (host, port))
    (plain : IsPlainPath rest) :
    parse (String.ofList ("http://".toList ++ authority ++ '/' :: rest)) =
      some { host, port, pieces := Text.split '/' rest, query := none } := by
  have solid : ∀ c ∈ rest, 32 < c.toNat := fun c member => by
    rcases plain c member with isPlain | rfl
    · exact gt_blank_of_isPlain isPlain
    · decide
  rw [parse_below isAuthority server, tidy_solid solid, readPath_plain plain, readQuery_plain plain]

theorem target_plain {host : String} {port : Nat} (rest : List Char) :
    target { host, port, pieces := Text.split '/' rest, query := none } = String.ofList ('/' :: rest) := by
  simp [target, Text.join_split]

end Url

end Http

/-! ## Routes -/

namespace Api

open Http (isPlain)

theorem path_plain {rest : List Char} (plain : Http.Url.IsPlainPath rest) :
    Route.path (String.ofList ('/' :: rest)) = '/' :: rest := by
  rw [Route.path, String.toList_ofList, Http.Url.takeWhile_uncut plain]
  rfl

theorem readName_plain {cs : List Char} (plain : ∀ c ∈ cs, isPlain c = true) (part : String) :
    readName part cs = .ok (String.ofList cs) := by
  have free : '%' ∉ cs := fun member => Bool.noConfusion (plain '%' member)
  rw [readName, Http.PercentCoding.decodeText_of_not_mem free]

theorem ofPath_task {id : List Char} (named : id ≠ []) (plain : ∀ c ∈ id, isPlain c = true) :
    Route.ofPath ('/' :: ("tasks/".toList ++ id)) = some (.task id) := by
  have uncut : '/' ∉ id := fun member => Bool.noConfusion (plain '/' member)
  have pieces : Text.split '/' ('/' :: ("tasks/".toList ++ id)) = [[], "tasks".toList, id] := by
    have cut : '/' :: ("tasks/".toList ++ id) = [] ++ '/' :: ("tasks".toList ++ '/' :: id) := rfl
    rw [cut, Text.split_append (by decide), Text.split_append (by decide), Text.split_of_not_mem uncut]
  have given : String.ofList id ≠ "" := fun same => named (by simpa using congrArg String.toList same)
  rw [Route.ofPath, pieces]
  simp [given]

end Api

end PlanService
