import TerraDeps.Proofs.Catalog
import TerraDeps.Snapshot

/-!
# The digest stream determines the snapshot

A framed text can be read off the front of any bytes, since its length comes first and takes eight
bytes whatever it is (`Snapshot.framed_append_inj`); so the stream of a list of files can be parsed
back, though nothing says how many files it holds.

Lengths enter the stream modulo 2⁶⁴. A text has fewer bytes than that, which is a hypothesis here.
-/

set_option autoImplicit false

namespace TerraDeps

open Text

namespace Snapshot

open Catalog (GivesLast)

/-! ## Parsing the stream back -/

/-- A number is written in eight bytes. -/
theorem length_littleEndian (n : Nat) : (littleEndian n).length = 8 := by
  simp [littleEndian]

/-- Bit `i` of a number is bit `i % 8` of its byte `i / 8`. -/
theorem littleEndian_inj {m n : Nat} (hm : m < 18446744073709551616)
    (hn : n < 18446744073709551616) (h : littleEndian m = littleEndian n) : m = n := by
  have bytes : ∀ j < 8, (m >>> (8 * j)) % 256 = (n >>> (8 * j)) % 256 := by
    intro j hj
    have same := congrArg (fun l => (l[j]?.map UInt8.toNat)) h
    simpa [littleEndian, hj] using same
  refine Nat.eq_of_testBit_eq fun i => ?_
  by_cases low : i < 64
  · have bit (k : Nat) : ((k >>> (8 * (i / 8))) % 256).testBit (i % 8) = k.testBit i := by
      have byte := Nat.testBit_mod_two_pow (k >>> (8 * (i / 8))) 8 (i % 8)
      rw [Nat.testBit_shiftRight, Nat.div_add_mod] at byte
      simpa [Nat.mod_lt i (by decide : 0 < 8)] using byte
    rw [← bit m, ← bit n, bytes (i / 8) (by omega)]
  · have high (k : Nat) (hk : k < 18446744073709551616) : k.testBit i = false :=
      Nat.testBit_lt_two_pow
        (Nat.lt_of_lt_of_le hk (Nat.pow_le_pow_right (by decide : 0 < 2) (Nat.le_of_not_lt low)))
    rw [high m hm, high n hn]

/-- A text is encoded in as many bytes as its size says. -/
theorem length_encode (text : String) : (Utf8.encode text).length = text.utf8ByteSize :=
  String.size_toByteArray

/-- Texts with the same bytes are the same. -/
theorem encode_inj {a b : String} (h : Utf8.encode a = Utf8.encode b) : a = b :=
  String.toByteArray_inj.mp (ByteArray.ext (Array.toList_inj.mp h))

/-- Texts can be framed when their lengths fit in eight bytes. -/
def Fits (text : String) : Prop :=
  text.utf8ByteSize < 18446744073709551616

instance (text : String) : Decidable (Fits text) :=
  inferInstanceAs (Decidable (_ < _))

/-- A framed text has bytes. -/
theorem framed_ne_nil (text : String) : framed text ≠ [] := by
  refine List.ne_nil_of_length_pos ?_
  simp only [framed, List.length_append, length_littleEndian]
  omega

/-- What follows a framed text does not matter for reading it. -/
theorem framed_append_inj {a b : String} {s t : List UInt8} (ha : Fits a) (hb : Fits b)
    (h : framed a ++ s = framed b ++ t) : a = b ∧ s = t := by
  simp only [framed, length_encode, List.append_assoc] at h
  obtain ⟨sizes, rest⟩ := List.append_inj h (by rw [length_littleEndian, length_littleEndian])
  have sameSize := littleEndian_inj ha hb sizes
  obtain ⟨texts, rest⟩ := List.append_inj rest (by rw [length_encode, length_encode, sameSize])
  exact ⟨encode_inj texts, rest⟩

/-- Files whose paths and texts all can be framed. -/
def AllFit (files : List (String × String)) : Prop :=
  ∀ file ∈ files, Fits file.1 ∧ Fits file.2

instance (files : List (String × String)) : Decidable (AllFit files) :=
  inferInstanceAs (Decidable (∀ file ∈ files, Fits file.1 ∧ Fits file.2))

/-- Framed files one after another can be told apart, whatever their number. -/
theorem eq_of_flatMap_framed_eq {files others : List (String × String)} (fits : AllFit files)
    (othersFit : AllFit others)
    (h : (files.flatMap fun file => framed file.1 ++ framed file.2) =
      others.flatMap fun file => framed file.1 ++ framed file.2) : files = others := by
  induction files generalizing others with
  | nil =>
    cases others with
    | nil => rfl
    | cons other others => simp [framed_ne_nil] at h
  | cons file files ih =>
    cases others with
    | nil => simp [framed_ne_nil] at h
    | cons other others =>
      obtain ⟨fileFits, filesFit⟩ := List.forall_mem_cons.mp fits
      obtain ⟨otherFits, othersFit⟩ := List.forall_mem_cons.mp othersFit
      simp only [List.flatMap_cons, List.append_assoc] at h
      obtain ⟨paths, h⟩ := framed_append_inj fileFits.1 otherFits.1 h
      obtain ⟨texts, h⟩ := framed_append_inj fileFits.2 otherFits.2 h
      rw [Prod.ext paths texts, ih filesFit othersFit h]

/-! ## Snapshots of lists of files -/

/-- A snapshot has the files with the texts that are given last for them. -/
theorem mem_files_ofFiles {files : List (String × String)} {file : String × String} :
    file ∈ (ofFiles files).files.entries ↔ GivesLast files file.1 file.2 :=
  Catalog.get?_eq_some_iff.symm.trans Catalog.get?_ofList_eq_some_iff

/-- If all that is given fits, so does all that the snapshot has. -/
theorem allFit_ofFiles {files : List (String × String)} (fits : AllFit files) :
    AllFit (ofFiles files).files.entries := by
  intro file hf
  obtain ⟨before, after, rfl, -⟩ := mem_files_ofFiles.mp hf
  exact fits file (by simp)

/-- The lists mention the same paths, and for each the text that comes last is the same. -/
structure AgreeOnLast (files others : List (String × String)) : Prop where
  samePaths : ∀ path, path ∈ files.map Prod.fst ↔ path ∈ others.map Prod.fst
  sameLast : ∀ path text text', GivesLast files path text → GivesLast others path text' →
    text = text'

/-- Agreement goes both ways. -/
theorem AgreeOnLast.symm {files others : List (String × String)} (h : AgreeOnLast files others) :
    AgreeOnLast others files where
  samePaths path := (h.samePaths path).symm
  sameLast path text text' last last' := (h.sameLast path text' text last' last).symm

/-- What is given last on one side is given last on the other. -/
theorem AgreeOnLast.givesLast {files others : List (String × String)}
    (h : AgreeOnLast files others) {path text : String} (last : GivesLast files path text) :
    GivesLast others path text := by
  have mentioned := (h.samePaths path).mp (Catalog.mem_keys_of_givesLast last)
  obtain ⟨text', last'⟩ := Catalog.exists_givesLast mentioned
  rwa [h.sameLast path text text' last last']

/-- Snapshots are the same if they are given the same texts last. -/
theorem ofFiles_eq_iff_givesLast {files others : List (String × String)} :
    ofFiles files = ofFiles others ↔
      ∀ path text, GivesLast files path text ↔ GivesLast others path text := by
  have lookup (l : List (String × String)) (path text : String) :
      (ofFiles l).files.get? path = some text ↔ GivesLast l path text :=
    Catalog.get?_ofList_eq_some_iff
  constructor
  · intro same path text
    rw [← lookup, ← lookup, same]
  · intro same
    refine congrArg Snapshot.mk (Catalog.eq_of_get?_eq_some_iff fun path text => ?_)
    exact (lookup files path text).trans ((same path text).trans (lookup others path text).symm)

/-- Snapshots are the same if what they are given agrees on the last texts. -/
theorem ofFiles_eq_iff {files others : List (String × String)} :
    ofFiles files = ofFiles others ↔ AgreeOnLast files others := by
  rw [ofFiles_eq_iff_givesLast]
  constructor
  · intro same
    have mentioned {l l' : List (String × String)}
        (given : ∀ path text, GivesLast l path text → GivesLast l' path text) (path : String)
        (hp : path ∈ l.map Prod.fst) : path ∈ l'.map Prod.fst := by
      obtain ⟨text, last⟩ := Catalog.exists_givesLast hp
      exact Catalog.mem_keys_of_givesLast (given path text last)
    refine ⟨fun path => ⟨?_, ?_⟩, ?_⟩
    · exact mentioned (fun p t => (same p t).mp) path
    · exact mentioned (fun p t => (same p t).mpr) path
    · intro path text text' last last'
      exact Catalog.givesLast_unique ((same path text).mp last) last'
  · intro agree path text
    exact ⟨agree.givesLast, agree.symm.givesLast⟩

/-- Two messages that differ have one hash. -/
def Collide (message message' : List UInt8) : Prop :=
  message ≠ message' ∧ Digest.Sha256.hexDigest message = Digest.Sha256.hexDigest message'

/-- The streams that are hashed for two lists of files are the same exactly if the snapshots are,
and these exactly if the lists agree on what they give last; so different snapshots have different
digests unless their streams collide. -/
theorem digestStream_eq_iff {files others : List (String × String)} (fits : AllFit files)
    (othersFit : AllFit others) :
    ((ofFiles files).digestStream = (ofFiles others).digestStream ↔
        ofFiles files = ofFiles others) ∧
      (ofFiles files = ofFiles others ↔ AgreeOnLast files others) ∧
      ((ofFiles files).digest = (ofFiles others).digest → ofFiles files ≠ ofFiles others →
        Collide (ofFiles files).digestStream (ofFiles others).digestStream) := by
  have streams : (ofFiles files).digestStream = (ofFiles others).digestStream ↔
      ofFiles files = ofFiles others := by
    refine ⟨fun same => ?_, congrArg digestStream⟩
    have entries := eq_of_flatMap_framed_eq (allFit_ofFiles fits) (allFit_ofFiles othersFit) same
    exact congrArg Snapshot.mk (Catalog.eq_of_entries_eq entries)
  refine ⟨streams, ofFiles_eq_iff, fun digests different => ?_⟩
  exact ⟨fun same => different (streams.mp same), (String.append_right_inj _).mp digests⟩

/-- Two orders of the files, one of them with a text that is replaced. -/
theorem digestStream_eq_iff_reordered :
    AllFit [("b.hcl", "x"), ("a.hcl", "old"), ("a.hcl", "new")] ∧
      AllFit [("a.hcl", "new"), ("b.hcl", "x")] ∧
      ofFiles [("b.hcl", "x"), ("a.hcl", "old"), ("a.hcl", "new")] =
        ofFiles [("a.hcl", "new"), ("b.hcl", "x")] :=
  have fits : AllFit [("b.hcl", "x"), ("a.hcl", "old"), ("a.hcl", "new")] := by decide
  have othersFit : AllFit [("a.hcl", "new"), ("b.hcl", "x")] := by decide
  ⟨fits, othersFit, (digestStream_eq_iff fits othersFit).1.mp (by decide +kernel)⟩

end Snapshot

end TerraDeps
