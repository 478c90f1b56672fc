import VoipMonitor.Model.TarRead
import VoipMonitor.Proofs.TarParts

/-!
# What the reader finds in a header

The size in the header is the length of the part as long as its octal digits, read as a decimal
number, fit into 32 bits. The name without its number is the name of the file as long as both fit
into the field.
-/

namespace VoipMonitor.Tar
open VoipMonitor.Library

/-! ## The size -/

lemma decimal_octal_zero : decimal (octal 0) = 0 := rfl

lemma decimal_octal (n : Nat) : decimal (octal n) = 10 * decimal (octal (n / 8)) + n % 8 := by
  rcases Nat.eq_zero_or_pos n with rfl | hpos
  · rfl
  · have hdigit : (UInt8.ofNat (48 + n % 8)).toNat = 48 + n % 8 := by
      rw [UInt8.toNat_ofNat']
      omega
    have hlast : octal n = (Nat.digits 8 (n / 8)).reverse.map (fun d => UInt8.ofNat (48 + d)) ++
        [UInt8.ofNat (48 + n % 8)] := by
      rw [octal, if_neg (by omega), Nat.digits_def' (by omega) hpos, List.reverse_cons,
        List.map_append, List.map_singleton]
    rw [hlast, decimal_concat, hdigit, Nat.add_sub_cancel_left]
    rcases Nat.eq_zero_or_pos (n / 8) with hzero | hpos'
    · rw [hzero]
      rfl
    · rw [octal, if_neg (by omega)]

lemma decimal_octal_lt {a k n : Nat} (ha : a ≤ 8) (h : n < a * 8 ^ k) :
    decimal (octal n) < a * 10 ^ k := by
  induction k generalizing n with
  | zero =>
    have hzero : n / 8 = 0 := by omega
    rw [decimal_octal, hzero, decimal_octal_zero]
    omega
  | succ k ih =>
    rw [pow_succ, ← Nat.mul_assoc] at h
    have hless := ih (show n / 8 < a * 8 ^ k by omega)
    rw [decimal_octal, pow_succ, ← Nat.mul_assoc]
    omega

lemma octalDecimalLoop_eq {fuel n i d : Nat} (hfuel : n < 8 ^ fuel) (hsum : d + n * 8 ^ i < 2 ^ 32) :
    octalDecimalLoop fuel (decimal (octal n)) i d = d + n * 8 ^ i := by
  induction fuel generalizing n i d with
  | zero =>
    obtain rfl : n = 0 := by omega
    rw [octalDecimalLoop, Nat.zero_mul, Nat.add_zero]
  | succ fuel ih =>
    rw [octalDecimalLoop]
    split
    · rename_i hzero
      rcases Nat.eq_zero_or_pos n with rfl | hpos
      · rw [Nat.zero_mul, Nat.add_zero]
      · -- a number that is not zero has a digit that is not zero
        have hpositive : 0 < decimal (octal n) := by
          clear ih hfuel hsum hzero
          induction n using Nat.strong_induction_on with
          | _ n ih =>
            rw [decimal_octal]
            rcases Nat.eq_zero_or_pos (n / 8) with hless | hmore
            · omega
            · have := ih (n / 8) (by omega) hmore
              omega
        omega
    · have hrest : decimal (octal n) / 10 = decimal (octal (n / 8)) := by
        rw [decimal_octal n]
        omega
      have hdigit : decimal (octal n) % 10 = n % 8 := by
        rw [decimal_octal n]
        omega
      have hvalue : n * 8 ^ i = n % 8 * 8 ^ i + n / 8 * 8 ^ (i + 1) := by
        rw [pow_succ]
        nth_rewrite 1 [← Nat.mod_add_div n 8]
        ring
      have hmod : (d + n % 8 * 8 ^ i) % 2 ^ 32 = d + n % 8 * 8 ^ i := Nat.mod_eq_of_lt (by omega)
      rw [hrest, hdigit, hmod, ih (by rw [pow_succ] at hfuel; omega) (by omega)]
      omega

lemma isDigit_octal {n : Nat} {c : UInt8} (h : c ∈ octal n) : isDigit c = true := by
  have hc := octal_digits h
  simp only [isDigit, Bool.and_eq_true, decide_eq_true_eq]
  omega

lemma getSize_eq {front rest : Bytes} {n : Nat} (hfront : front.length = 124) (h : n < 2 ^ 29) :
    getSize (front ++ (thSetSize n ++ rest)) = n := by
  have hdrop : ((thSetSize n ++ rest).dropWhile fun c => c = 32) = octal n ++ (32 :: rest) := by
    rw [thSetSize_eq (by omega), List.append_assoc, List.append_assoc, List.singleton_append]
    refine dropWhile_append_of_all (by simp) fun c hc => ?_
    obtain ⟨first, others, hcons⟩ := List.exists_cons_of_ne_nil (octal_ne_nil n)
    rw [hcons, List.cons_append, List.head?_cons, Option.mem_some_iff] at hc
    have hdigit := octal_digits (show first ∈ octal n by rw [hcons]; simp)
    rw [← hc, decide_eq_false_iff_not]
    rintro rfl
    exact absurd hdigit.1 (by decide)
  have hlt : decimal (octal n) < 4 * 10 ^ 9 := decimal_octal_lt (by omega) (by omega)
  have hnumber : atol (octal n ++ (32 :: rest)) = decimal (octal n) := by
    have hdigits := @atol_digits [] (octal n) (32 :: rest) (by simp) (octal_ne_nil n)
      (fun c hc => isDigit_octal hc)
      (fun c hc => by rw [List.head?_cons, Option.mem_some_iff] at hc; rw [← hc]; decide)
      (by omega)
    rwa [List.nil_append] at hdigits
  rw [getSize, List.drop_left' hfront, hdrop, hnumber]
  have hcast : ((decimal (octal n) : Int) % 2 ^ 32).toNat = decimal (octal n) := by omega
  rw [hcast, octalDecimal, octalDecimalLoop_eq (by omega) (by omega), Nat.zero_add, pow_zero,
    Nat.mul_one]

/-! ## The block -/

lemma length_field {n : Nat} {text : Bytes} (h : text.length ≤ n) : (field n text).length = n := by
  rw [field, List.length_append, List.length_replicate]
  omega

lemma length_intToOct_le (num octlen : Nat) : (intToOct num octlen).length ≤ octlen - 1 := by
  rw [intToOct]
  exact List.length_take_le _ _

lemma length_intToOctNonull (num : Int) : (intToOctNonull num 12).length = 12 := by
  rw [intToOctNonull, List.length_append, List.length_take, List.length_append,
    List.length_replicate, List.length_singleton]
  omega

structure HeaderOf (header name : Bytes) (size : Nat) : Prop where
  length : header.length = 512
  name : cString header = name
  size : getSize header = size

lemma headerOf_thBuf {name mtime chksum : Bytes} {n : Nat} (hzero : 0 ∉ name)
    (hlen : name.length ≤ 99) (hn : n < 2 ^ 29) (hmtime : mtime.length = 12)
    (hchksum : chksum.length ≤ 8) : HeaderOf (thBuf name (thSetSize n) mtime chksum) name n := by
  have hmode : (field 8 (intToOct 0o444 8)).length = 8 :=
    length_field ((length_intToOct_le _ 8).trans (by omega))
  have hid : (field 8 (intToOct 0 8)).length = 8 :=
    length_field ((length_intToOct_le _ 8).trans (by omega))
  have hname : (field 100 name).length = 100 := length_field (by omega)
  have hsize : (thSetSize n).length = 12 := length_intToOctNonull _
  have hsum : (field 8 chksum).length = 8 := length_field hchksum
  have hmagic : (field 6 (ascii "ustar")).length = 6 := length_field (by decide)
  have hversion : (ascii "  ").length = 2 := rfl
  have hlink : (field 101 []).length = 101 := length_field (Nat.zero_le _)
  have hrest : (field 247 []).length = 247 := length_field (Nat.zero_le _)
  rw [thBuf]
  generalize field 8 (intToOct 0o444 8) = mode at hmode ⊢
  generalize field 8 (intToOct 0 8) = id at hid ⊢
  generalize field 8 chksum = sum at hsum ⊢
  generalize field 6 (ascii "ustar") = magic at hmagic ⊢
  generalize ascii "  " = version at hversion ⊢
  generalize field 101 [] = link at hlink ⊢
  generalize field 247 [] = others at hrest ⊢
  refine ⟨?_, ?_, ?_⟩
  · simp only [List.length_append, hname, hmode, hid, hsize, hmtime, hsum, hmagic, hversion, hlink,
      hrest]
  · have hend : field 100 name = name ++ 0 :: List.replicate (99 - name.length) 0 := by
      have hsucc : 100 - name.length = 99 - name.length + 1 := by omega
      rw [field, hsucc, List.replicate_succ]
    rw [hend]
    simp only [List.append_assoc, List.cons_append]
    rw [cString, List.takeWhile_append_of_pos (fun c hc => by
      rw [bne_iff_ne]
      rintro rfl
      exact hzero hc), List.takeWhile_cons_of_neg (by decide), List.append_nil]
  · have hfront : (field 100 name ++ mode ++ id ++ id).length = 124 := by
      simp only [List.length_append, hname, hmode, hid]
    have hread := @getSize_eq _ (mtime ++ (sum ++ (link ++ (magic ++ (version ++ others))))) n
      hfront hn
    simp only [List.append_assoc] at hread ⊢
    exact hread

lemma headerOf_thFinish {name : Bytes} {n : Nat} (time : Int) (hzero : 0 ∉ name)
    (hlen : name.length ≤ 99) (hn : n < 2 ^ 29) :
    HeaderOf (thFinish name (thSetSize n) (intToOctNonull time 12)) name n :=
  headerOf_thBuf hzero hlen hn (length_intToOctNonull time)
    ((length_intToOct_le _ 8).trans (by omega))

/-! ## The name -/

lemma suffixText_eq (n : Nat) :
    ∃ digits, suffixText n = 35 :: digits ∧ digits ≠ [] ∧ IsDigits digits := by
  refine ⟨(decimalText n).take 18, rfl, ?_, ?_⟩
  · rw [Ne, List.take_eq_nil_iff]
    exact not_or.mpr ⟨by omega, decimalText_ne_nil n⟩
  · exact (isDigits_decimalText n).of_isPrefix (List.take_prefix _ _)

lemma length_suffixText_le (n : Nat) : (suffixText n).length ≤ 19 := List.length_take_le _ _

lemma takeWhile_number {base digits : Bytes} (hdigits : IsDigits digits) :
    (base ++ 35 :: digits).reverse.takeWhile isDigit = digits.reverse ∧
      (base ++ 35 :: digits).reverse.drop digits.length = 35 :: base.reverse := by
  have hrev : (base ++ 35 :: digits).reverse = digits.reverse ++ 35 :: base.reverse := by
    rw [List.reverse_append, List.reverse_cons, List.append_assoc, List.singleton_append]
  rw [hrev]
  refine ⟨takeWhile_append_of_all (fun c hc => hdigits c (List.mem_reverse.mp hc)) ?_, ?_⟩
  · intro c hc
    rw [List.head?_cons, Option.mem_some_iff] at hc
    rw [← hc]
    decide
  · exact List.drop_left' (List.length_reverse)

lemma endsInNumber_suffix {base digits : Bytes} (hne : digits ≠ []) (hdigits : IsDigits digits) :
    endsInNumber 35 none (base ++ 35 :: digits) = true := by
  obtain ⟨htake, hdrop⟩ := @takeWhile_number base digits hdigits
  have hpos := List.length_pos_iff.mpr hne
  rw [endsInNumber, htake, List.length_reverse, hdrop, decide_eq_true_iff]
  exact ⟨hpos, nofun, rfl⟩

lemma cmpLength_suffix {base digits : Bytes} (hne : digits ≠ []) (hdigits : IsDigits digits) :
    cmpLengthNameInTar (base ++ 35 :: digits) = base.length := by
  rw [cmpLengthNameInTar, if_pos (Or.inl (endsInNumber_suffix hne hdigits)),
    (takeWhile_number hdigits).1, List.length_append, List.length_cons, List.length_reverse]
  omega

/-- The names of the files: they do not end in a mark with digits behind it. -/
structure NameOk (f : Bytes) : Prop where
  ne_nil : f ≠ []
  length_le : f.length ≤ 92
  zero : 0 ∉ f
  number : endsInNumber 35 none f = false
  underscore : endsInNumber 95 none f = false

lemma NameOk.cmpLength {f : Bytes} (h : NameOk f) : cmpLengthNameInTar f = f.length := by
  rw [cmpLengthNameInTar, if_neg]
  rintro (hnumber | hunderscore)
  · rw [h.number] at hnumber
    cases hnumber
  · have hno := h.underscore
    rw [endsInNumber, decide_eq_false_iff_not] at hno
    rw [endsInNumber, decide_eq_true_iff] at hunderscore
    exact hno ⟨hunderscore.1, nofun, hunderscore.2.2⟩

def baseName (f : Bytes) (partCounter : Nat) : Bytes :=
  if f.length + (suffixText partCounter).length > 99 then
    f.take (99 - (suffixText partCounter).length)
  else f

lemma NameOk.thSetPath {f : Bytes} (h : NameOk f) (names : Names) (partSuffix : Bool) (k : Nat) :
    thSetPath names f partSuffix k = if partSuffix then baseName f k ++ suffixText k else f := by
  have hle := h.length_le
  have hshort : ¬(names.useHash = true ∧ reserveLimit < f.length) := by
    rintro ⟨-, hlong⟩
    rw [reserveLimit] at hlong
    omega
  have htake : f.take nameLength = f := List.take_of_length_le (by rw [nameLength]; omega)
  simp only [Tar.thSetPath, if_neg hshort, htake]
  rfl

lemma baseName_isPrefix (f : Bytes) (k : Nat) : baseName f k <+: f := by
  rw [baseName]
  split
  · exact List.take_prefix _ _
  · exact List.prefix_refl f

lemma length_baseName_le (f : Bytes) (k : Nat) :
    (baseName f k).length + (suffixText k).length ≤ 99 := by
  have hsuffix := length_suffixText_le k
  rw [baseName]
  split
  · rw [List.length_take]
    omega
  · omega

lemma baseName_eq_iff {f : Bytes} {k : Nat} :
    baseName f k = f ↔ f.length + (suffixText k).length ≤ 99 := by
  have hsuffix := length_suffixText_le k
  rw [baseName]
  split
  · rename_i hlong
    refine iff_of_false (fun heq => ?_) (by omega)
    have hlen := congrArg List.length heq
    rw [List.length_take] at hlen
    omega
  · exact iff_of_true rfl (by omega)

lemma headerOf_header {names : Names} {t : TarFile} {p : FilePart} (hname : NameOk p.filename)
    (hdata : p.data.length < 2 ^ 29) :
    HeaderOf (header names t p)
      (if p.partSuffix then baseName p.filename (t.partCounter + 1) ++ suffixText (t.partCounter + 1)
        else p.filename) p.data.length := by
  rw [header, hname.thSetPath]
  have hle := hname.length_le
  refine headerOf_thFinish p.time ?_ ?_ hdata
  · split
    · obtain ⟨digits, hsuffix, -, hdigits⟩ := suffixText_eq (t.partCounter + 1)
      rw [hsuffix, List.mem_append, List.mem_cons]
      rintro (hzero | hzero | hzero)
      · exact hname.zero ((baseName_isPrefix _ _).subset hzero)
      · cases hzero
      · exact absurd (hdigits 0 hzero) (by decide)
    · exact hname.zero
  · split
    · rw [List.length_append]
      exact length_baseName_le _ _
    · omega

/-!
## Reading the blocks of one part

From a header on, the reader goes through the blocks of the part and ends at the next header. What
it passes on are the blocks of the data, cut to the size of the part, when the name fits.
-/

open VoipMonitor.Library VoipMonitor.Compress

structure Feed where
  stream : Option DecompressStream
  out : Bytes
  error : Bool

def ReadData.feed (r : ReadData) : Feed := ⟨r.stream, r.out, r.error⟩

def Feed.deliver (codec : Codec) (s : Feed) (data : Bytes) : Feed :=
  let stream := s.stream.getD ReadData.newStream
  if stream.errorString ≠ "" then ⟨some stream, s.out, true⟩
  else
    let next := decompress codec stream data 0
    ⟨some next.1, s.out ++ next.2, s.error⟩

def Feed.all (codec : Codec) : Feed → List Bytes → Feed
  | s, [] => s
  | s, chunk :: chunks => if s.error then s else Feed.all codec (s.deliver codec chunk) chunks

def blocksUpTo : Nat → Bytes → List Bytes
  | 0, _ => []
  | count + 1, data => if data = [] then [] else data.take 512 :: blocksUpTo count (data.drop 512)

def blocksOf (data : Bytes) : List Bytes := blocksUpTo data.length data

variable {codec : Codec} {r : ReadData} {s : Feed} {f data rest block : Bytes}

lemma Feed.all_of_error {chunks : List Bytes} (h : s.error = true) : s.all codec chunks = s := by
  cases chunks with
  | nil => rfl
  | cons chunk chunks => rw [Feed.all, if_pos h]

lemma Feed.all_append (codec : Codec) (a b : List Bytes) (s : Feed) :
    s.all codec (a ++ b) = (s.all codec a).all codec b := by
  induction a generalizing s with
  | nil => rfl
  | cons chunk a ih =>
    rw [List.cons_append, Feed.all, Feed.all]
    split
    · rename_i herror
      rw [Feed.all_of_error herror]
    · exact ih _

lemma blocksUpTo_congr {a b : Nat} (ha : data.length ≤ a) (hb : data.length ≤ b) :
    blocksUpTo a data = blocksUpTo b data := by
  induction a generalizing b data with
  | zero =>
    obtain rfl := List.length_eq_zero_iff.mp (Nat.le_zero.mp ha)
    cases b with
    | zero => rfl
    | succ b => rfl
  | succ a ih =>
    cases b with
    | zero =>
      obtain rfl := List.length_eq_zero_iff.mp (Nat.le_zero.mp hb)
      rfl
    | succ b =>
      rw [blocksUpTo, blocksUpTo]
      split
      · rfl
      · rename_i hne
        rw [@ih (data.drop 512) b (by rw [List.length_drop]; omega)
          (by rw [List.length_drop]; omega)]

lemma blocksOf_cons (hne : data ≠ []) : blocksOf data = data.take 512 :: blocksOf (data.drop 512) := by
  cases data with
  | nil => exact absurd rfl hne
  | cons c data =>
    have hlen : ((c :: data).drop 512).length ≤ data.length := by
      rw [List.length_drop, List.length_cons]
      omega
    rw [blocksOf, List.length_cons, blocksUpTo, if_neg hne, blocksUpTo_congr hlen le_rfl]
    rfl

lemma deliver_eq (r : ReadData) (codec : Codec) (data : Bytes) :
    r.deliver codec data = { r with
      stream := (r.feed.deliver codec data).stream
      out := (r.feed.deliver codec data).out
      error := (r.feed.deliver codec data).error } := by
  by_cases herror : (r.stream.getD ReadData.newStream).errorString ≠ ""
  · have hfeed : r.feed.deliver codec data =
        ⟨some (r.stream.getD ReadData.newStream), r.out, true⟩ := if_pos herror
    rw [hfeed]
    exact if_pos herror
  · have hfeed : r.feed.deliver codec data =
        ⟨some (decompress codec (r.stream.getD ReadData.newStream) data 0).1,
          r.out ++ (decompress codec (r.stream.getD ReadData.newStream) data 0).2, r.error⟩ :=
      if_neg herror
    rw [hfeed]
    exact if_neg herror

structure LooksFor (r : ReadData) (f : Bytes) : Prop where
  filename : r.filename = f
  hash : r.hashFilename = []
  checkExists : r.checkExists = false
  buffer : r.buffer = []

def Matches (f name : Bytes) : Prop :=
  cmpLengthNameInTar name = f.length ∧ name.take (cmpLengthNameInTar name) = f

instance (f name : Bytes) : Decidable (Matches f name) :=
  inferInstanceAs (Decidable (cmpLengthNameInTar name = f.length ∧
    name.take (cmpLengthNameInTar name) = f))

lemma LooksFor.sameName (h : LooksFor r f) (hf : f.length ≤ 92) (name : Bytes) :
    r.sameName name = true ↔ Matches f name := by
  rw [ReadData.sameName, decide_eq_true_iff, h.filename, h.hash, reserveLimit]
  constructor
  · rintro (⟨hlong | hlen, htake⟩ | ⟨hne, -⟩)
    · omega
    · refine ⟨hlen, htake.trans ?_⟩
      rw [hlen, List.take_length]
    · exact absurd rfl hne
  · rintro ⟨hlen, htake⟩
    refine Or.inl ⟨Or.inr hlen, htake.trans ?_⟩
    rw [hlen, List.take_length]

lemma LooksFor.wholeName (h : LooksFor r f) (hf : f.length ≤ 92) (name : Bytes) :
    r.wholeName name = true ↔ name = f := by
  rw [ReadData.wholeName, decide_eq_true_iff, h.filename, h.hash, nameLength, if_neg (by omega)]
  constructor
  · rintro (hname | ⟨hne, -⟩)
    · exact hname
    · exact absurd rfl hne
  · exact Or.inl

structure Moved (r r' : ReadData) : Prop where
  oneFile : r'.oneFile = r.oneFile
  filename : r'.filename = r.filename
  hash : r'.hashFilename = r.hashFilename
  checkExists : r'.checkExists = r.checkExists
  buffer : r'.buffer = r.buffer
  position : r'.position ≠ 0

lemma LooksFor.moved {r' : ReadData} (h : LooksFor r f) (hmoved : Moved r r') : LooksFor r' f :=
  ⟨hmoved.filename.trans h.filename, hmoved.hash.trans h.hash,
    hmoved.checkExists.trans h.checkExists, hmoved.buffer.trans h.buffer⟩

lemma Moved.trans {r' r'' : ReadData} (h : Moved r r') (h' : Moved r' r'') : Moved r r'' :=
  ⟨h'.oneFile.trans h.oneFile, h'.filename.trans h.filename, h'.hash.trans h.hash,
    h'.checkExists.trans h.checkExists, h'.buffer.trans h.buffer, h'.position⟩

lemma LooksFor.fileEv_end (h : LooksFor r f) (hf : NameOk f) (header : Bytes) :
    r.fileEv codec header [] = { r with ended := r.ended || decide (cString header = f) } := by
  rw [ReadData.fileEv]
  have hsame := h.sameName hf.length_le (cString header)
  have hwhole := h.wholeName hf.length_le (cString header)
  by_cases hname : cString header = f
  · have hmatches : Matches f f := by
      rw [Matches, hf.cmpLength, List.take_length]
      exact ⟨rfl, rfl⟩
    rw [if_pos (by rw [hsame, hname]; exact hmatches), if_neg (fun hne => hne rfl),
      if_pos ⟨hname ▸ hf.ne_nil, Or.inr (hwhole.mpr hname)⟩, hname, decide_eq_true rfl,
      Bool.or_true]
  · have hkeep : { r with ended := r.ended || decide (cString header = f) } = r := by
      rw [decide_eq_false hname, Bool.or_false]
    rw [hkeep]
    split
    · rw [if_neg (fun hne => hne rfl), if_neg]
      rintro ⟨-, hexists | hwhole'⟩
      · rw [h.checkExists] at hexists
        cases hexists
      · exact hname (hwhole.mp hwhole')
    · rfl

def readFrom (codec : Codec) (r : ReadData) (rest : Bytes) : ReadData :=
  r.readLoop codec rest.length rest

lemma readLoop_congr {a b : Nat} (ha : rest.length ≤ a) (hb : rest.length ≤ b) :
    r.readLoop codec a rest = r.readLoop codec b rest := by
  induction a generalizing b r rest with
  | zero =>
    obtain rfl := List.length_eq_zero_iff.mp (Nat.le_zero.mp ha)
    cases b with
    | zero => rfl
    | succ b => rw [ReadData.readLoop, ReadData.readLoop, if_pos (Or.inr (Or.inr rfl))]
  | succ a ih =>
    cases b with
    | zero =>
      obtain rfl := List.length_eq_zero_iff.mp (Nat.le_zero.mp hb)
      rw [ReadData.readLoop, ReadData.readLoop, if_pos (Or.inr (Or.inr rfl))]
    | succ b =>
      rw [ReadData.readLoop, ReadData.readLoop]
      split
      · rfl
      · rename_i hgo
        refine ih ?_ ?_ <;>
        · rw [List.length_drop, blockSize]
          omega

lemma readFrom_stopped (h : r.ended = true ∨ r.error = true) : readFrom codec r rest = r := by
  rw [readFrom]
  cases rest with
  | nil => rfl
  | cons c rest => rw [List.length_cons, ReadData.readLoop, if_pos (h.imp id Or.inl)]

lemma readFrom_block (hended : r.ended = false) (herror : r.error = false) (hbuffer : r.buffer = [])
    (hblock : block.length = 512) :
    readFrom codec r (block ++ rest) =
      readFrom codec { r.blockEv codec block with position := (r.blockEv codec block).position + 512 }
        rest := by
  have hne : block ++ rest ≠ [] := by
    intro hnil
    have := congrArg List.length hnil
    rw [List.length_append, hblock, List.length_nil] at this
    omega
  obtain ⟨n, hn⟩ : ∃ n, (block ++ rest).length = n + 1 := ⟨(block ++ rest).length - 1, by
    have := List.length_pos_iff.mpr hne
    omega⟩
  have hgo : ¬(r.ended = true ∨ r.error = true ∨ block ++ rest = []) := by
    rw [hended, herror]
    rintro (h | h | h)
    · cases h
    · cases h
    · exact hne h
  have htake : (block ++ rest).take blockSize = block := List.take_left' hblock
  have hdrop : (block ++ rest).drop blockSize = rest := List.drop_left' hblock
  rw [readFrom, hn, ReadData.readLoop, if_neg hgo, htake, hdrop]
  have hev : r.decompressEv codec block =
      { r.blockEv codec block with position := (r.blockEv codec block).position + 512 } := by
    rw [ReadData.decompressEv, if_neg]
    · rfl
    · rintro (hlen | hbuf)
      · exact hlen hblock
      · exact hbuf hbuffer
  rw [hev, readFrom]
  refine readLoop_congr ?_ le_rfl
  rw [List.length_append, hblock] at hn
  omega

def Behind (r : ReadData) : Prop := r.position = 0 ∨ getSize r.fileHeader ≤ r.fileSize

lemma LooksFor.read_header (h : LooksFor r f) (hf : NameOk f) (hended : r.ended = false)
    (herror : r.error = false) (hbehind : Behind r) (hblock : block.length = 512) :
    ∃ r', readFrom codec r (block ++ rest) = readFrom codec r' rest ∧ Moved r r' ∧
      r'.feed = r.feed ∧ r'.fileHeader = block ∧ r'.fileSize = 0 ∧
      (r'.ended = true ↔ r.position ≠ 0 ∧ cString r.fileHeader = f) := by
  have hno : ¬(r.position ≠ 0 ∧ r.fileSize < getSize r.fileHeader) := by
    rintro ⟨hpos, hless⟩
    rcases hbehind with hzero | hdone
    · exact hpos hzero
    · omega
  refine ⟨_, readFrom_block hended herror h.buffer hblock, ?_⟩
  have hev : r.blockEv codec block = { r with
      fileHeader := block
      fileSize := 0
      ended := decide (r.position ≠ 0 ∧ cString r.fileHeader = f) } := by
    rw [ReadData.blockEv, if_neg (by rw [hended]; exact Bool.false_ne_true), if_neg hno]
    by_cases hpos : r.position = 0
    · rw [if_neg (not_not.mpr hpos)]
      simp only [hpos, ne_eq, not_true_eq_false, false_and, decide_false]
      rw [← hended]
    · rw [if_pos hpos, h.fileEv_end hf]
      simp only [hended, Bool.false_or, ne_eq, hpos, not_false_eq_true, true_and]
  rw [hev]
  exact ⟨⟨rfl, rfl, rfl, rfl, rfl, Nat.succ_ne_zero _⟩, rfl, rfl, rfl, decide_eq_true_iff⟩

lemma LooksFor.read_data_block {chunk zeros : Bytes} (h : LooksFor r f) (hf : f.length ≤ 92)
    (hended : r.ended = false) (herror : r.error = false) (hpos : r.position ≠ 0)
    (hsize : r.fileSize < getSize r.fileHeader) (hchunk : chunk ≠ [])
    (hblock : (chunk ++ zeros).length = 512)
    (hlen : (if r.fileSize + 512 > getSize r.fileHeader then getSize r.fileHeader % 512 else 512) =
      chunk.length) :
    ∃ r', readFrom codec r (chunk ++ zeros ++ rest) = readFrom codec r' rest ∧ Moved r r' ∧
      r'.feed = r.feed.all codec (if Matches f (cString r.fileHeader) then [chunk] else []) ∧
      r'.fileHeader = r.fileHeader ∧ r'.fileSize = r.fileSize + chunk.length ∧
      (r'.ended = true ↔ r.oneFile = true ∧ getSize r.fileHeader ≤ r.fileSize + chunk.length) := by
  refine ⟨_, readFrom_block hended herror h.buffer hblock, ?_⟩
  have hsame := h.sameName hf (cString r.fileHeader)
  have hev : r.fileEv codec r.fileHeader chunk =
      if Matches f (cString r.fileHeader) then r.deliver codec chunk else r := by
    rw [ReadData.fileEv]
    by_cases hm : Matches f (cString r.fileHeader)
    · rw [if_pos (hsame.mpr hm), if_pos hchunk, if_pos hm]
    · rw [if_neg (mt hsame.mp hm), if_neg hm]
  have hfields : ∀ g : ReadData, g = (if Matches f (cString r.fileHeader) then
      r.deliver codec chunk else r) →
      g.feed = r.feed.all codec (if Matches f (cString r.fileHeader) then [chunk] else []) ∧
      g = { r with stream := g.feed.stream, out := g.feed.out, error := g.feed.error } := by
    have hfine : ¬r.feed.error = true := Bool.eq_false_iff.mp herror
    rintro g rfl
    split
    · rw [deliver_eq, Feed.all, if_neg hfine, Feed.all]
      exact ⟨rfl, rfl⟩
    · exact ⟨rfl, rfl⟩
  obtain ⟨hfeed, hg⟩ := hfields _ rfl
  rw [ReadData.blockEv, if_neg (by rw [hended]; exact Bool.false_ne_true), if_pos ⟨hpos, hsize⟩]
  dsimp only
  rw [blockSize, hlen, List.take_left' rfl, hev]
  generalize (if Matches f (cString r.fileHeader) then r.deliver codec chunk else r) = g at hfeed hg ⊢
  rw [← hfeed]
  rw [hg]
  split
  · rename_i hdone
    exact ⟨⟨rfl, rfl, rfl, rfl, rfl, Nat.succ_ne_zero _⟩, rfl, rfl, rfl, iff_of_true rfl hdone⟩
  · rename_i hmore
    refine ⟨⟨rfl, rfl, rfl, rfl, rfl, Nat.succ_ne_zero _⟩, rfl, rfl, rfl, iff_of_false ?_ hmore⟩
    rw [hended]
    exact Bool.false_ne_true

def passed (f name data : Bytes) : List Bytes := if Matches f name then blocksOf data else []

lemma passed_cons (f name : Bytes) (hne : data ≠ []) : passed f name data =
    (if Matches f name then [data.take 512] else []) ++ passed f name (data.drop 512) := by
  rw [passed, passed]
  split
  · rw [blocksOf_cons hne, List.singleton_append]
  · rfl

/-- A block of data with more of them behind it. -/
lemma LooksFor.read_next_block (h : LooksFor r f) (hf : f.length ≤ 92) (hended : r.ended = false)
    (herror : r.error = false) (hpos : r.position ≠ 0) (hsize : getSize r.fileHeader = data.length)
    (hmore : r.fileSize + 512 < data.length) (padded : Bytes) :
    ∃ r', readFrom codec r (data.drop r.fileSize ++ padded) =
        readFrom codec r' (data.drop (r.fileSize + 512) ++ padded) ∧ Moved r r' ∧
      r'.feed = r.feed.all codec (if Matches f (cString r.fileHeader) then
        [(data.drop r.fileSize).take 512] else []) ∧
      r'.fileHeader = r.fileHeader ∧ r'.fileSize = r.fileSize + 512 ∧ r'.ended = false := by
  have hlen512 : ((data.drop r.fileSize).take 512).length = 512 := by
    rw [List.length_take, List.length_drop]
    omega
  have hchunk : (data.drop r.fileSize).take 512 ≠ [] := by
    rw [← List.length_pos_iff, hlen512]
    decide
  have hblock : ((data.drop r.fileSize).take 512 ++ []).length = 512 := by
    rw [List.append_nil, hlen512]
  have hlen : (if r.fileSize + 512 > getSize r.fileHeader then getSize r.fileHeader % 512
      else 512) = ((data.drop r.fileSize).take 512).length := by
    rw [if_neg (by omega), hlen512]
  obtain ⟨r', hread, hmoved, hfeed, hheader, hfileSize, hend⟩ :=
    @read_data_block codec r f (data.drop (r.fileSize + 512) ++ padded) _ _ h hf hended herror hpos
      (by omega) hchunk hblock hlen
  rw [hlen512] at hfileSize hend
  refine ⟨r', ?_, hmoved, hfeed, hheader, hfileSize, ?_⟩
  · rw [← hread]
    congr 1
    nth_rewrite 1 [← List.take_append_drop 512 (data.drop r.fileSize)]
    rw [List.append_nil, List.drop_drop, List.append_assoc]
  · rw [← Bool.not_eq_true, hend]
    omega

lemma LooksFor.read_data (h : LooksFor r f) (hf : f.length ≤ 92) (hended : r.ended = false)
    (herror : r.error = false) (hpos : r.position ≠ 0) (hsize : getSize r.fileHeader = data.length)
    (hunit : r.fileSize % 512 = 0) (hless : r.fileSize < data.length) :
    ∃ r', readFrom codec r
        (data.drop r.fileSize ++ List.replicate (padding data.length) 0 ++ rest) =
        readFrom codec r' rest ∧ Moved r r' ∧
      r'.feed = r.feed.all codec (passed f (cString r.fileHeader) (data.drop r.fileSize)) ∧
      r'.fileHeader = r.fileHeader ∧
      (r'.error = false → r'.fileSize = data.length ∧ (r'.ended = true ↔ r.oneFile = true)) := by
  -- the induction is on what is left of the data
  induction hk : data.length - r.fileSize using Nat.strong_induction_on generalizing r with
  | _ k ih =>
    have hlength : (data.drop r.fileSize).length = data.length - r.fileSize := List.length_drop
    have hne : data.drop r.fileSize ≠ [] := by
      rw [← List.length_pos_iff, hlength]
      omega
    rw [passed_cons f _ hne, List.drop_drop]
    by_cases hlast : data.length ≤ r.fileSize + 512
    · have hblock : (data.drop r.fileSize ++
          List.replicate (padding data.length) (0 : UInt8)).length = 512 := by
        rw [List.length_append, hlength, List.length_replicate, padding]
        split <;> omega
      have hlen : (if r.fileSize + 512 > getSize r.fileHeader then getSize r.fileHeader % 512
          else 512) = (data.drop r.fileSize).length := by
        rw [hsize, hlength]
        split <;> omega
      obtain ⟨r', hread, hmoved, hfeed, hheader, hfileSize, hend⟩ :=
        @read_data_block codec r f rest _ _ h hf hended herror hpos (by omega) hne hblock hlen
      rw [hlength] at hfileSize hend
      refine ⟨r', hread, hmoved, ?_, hheader, fun _ => ⟨by omega, ?_⟩⟩
      · have hnil : passed f (cString r.fileHeader) (data.drop (r.fileSize + 512)) = [] := by
          rw [List.drop_eq_nil_of_le hlast]
          exact ite_self _
        rw [hfeed, hnil, List.take_of_length_le (by omega), List.append_nil]
      · rw [hend]
        exact and_iff_left (by omega)
    · obtain ⟨r₁, hread, hmoved, hfeed, hheader, hfileSize, hended₁⟩ := h.read_next_block hf hended
        herror hpos hsize (by omega) (List.replicate (padding data.length) 0 ++ rest)
      rw [← List.append_assoc, ← List.append_assoc] at hread
      rw [hread, Feed.all_append, ← hfeed]
      by_cases herror₁ : r₁.error = true
      · refine ⟨r₁, ?_, hmoved, (Feed.all_of_error herror₁).symm, hheader, fun hno => ?_⟩
        · rw [readFrom_stopped (Or.inr herror₁), readFrom_stopped (Or.inr herror₁)]
        · rw [herror₁] at hno
          cases hno
      · obtain ⟨r', hread₂, hmoved₂, hfeed₂, hheader₂, hdone⟩ := ih (data.length - r₁.fileSize)
          (by omega) (h.moved hmoved) hended₁ (Bool.eq_false_iff.mpr herror₁) hmoved.position
          (hheader ▸ hsize) (by omega) (by omega) rfl
        rw [hfileSize] at hread₂
        rw [hfileSize, hheader] at hfeed₂
        refine ⟨r', hread₂, hmoved.trans hmoved₂, hfeed₂, hheader₂.trans hheader, fun hno => ?_⟩
        rw [← hmoved.oneFile]
        exact hdone hno

lemma LooksFor.read_part {header name : Bytes} (h : LooksFor r f) (hf : NameOk f)
    (hended : r.ended = false) (herror : r.error = false) (hbehind : Behind r)
    (hlast : ¬(r.position ≠ 0 ∧ cString r.fileHeader = f)) (hdata : data ≠ [])
    (hheader : HeaderOf header name data.length) :
    ∃ r', readFrom codec r
        (header ++ data ++ List.replicate (padding data.length) 0 ++ rest) =
        readFrom codec r' rest ∧ Moved r r' ∧
      r'.feed = r.feed.all codec (passed f name data) ∧ r'.fileHeader = header ∧
      (r'.error = false → Behind r' ∧ (r'.ended = true ↔ r.oneFile = true)) := by
  obtain ⟨r₁, hread, hmoved, hfeed, hfileHeader, hfileSize, hend⟩ :=
    @read_header codec r f
      (data ++ List.replicate (padding data.length) 0 ++ rest) _ h hf hended herror hbehind
      hheader.length
  have hended₁ : r₁.ended = false := by
    rw [← Bool.not_eq_true, hend]
    exact hlast
  have herror₁ : r₁.error = false := (congrArg Feed.error hfeed).trans herror
  have hpos := List.length_pos_iff.mpr hdata
  obtain ⟨r', hread', hmoved', hfeed', hheader', hdone⟩ := @read_data codec r₁ f data rest
    (h.moved hmoved) hf.length_le hended₁ herror₁ hmoved.position
    (by rw [hfileHeader, hheader.size]) (by rw [hfileSize]) (by omega)
  rw [hfileSize, List.drop_zero, hfileHeader, hheader.name, hfeed] at hfeed'
  rw [hfileSize, List.drop_zero] at hread'
  refine ⟨r', ?_, hmoved.trans hmoved', hfeed', hheader'.trans hfileHeader, fun hno => ?_⟩
  · rw [List.append_assoc, List.append_assoc, ← List.append_assoc data, hread, hread']
  · obtain ⟨hsize, honeFile⟩ := hdone hno
    refine ⟨Or.inr ?_, honeFile.trans (by rw [hmoved.oneFile])⟩
    rw [hheader', hfileHeader, hheader.size, hsize]

end VoipMonitor.Tar
