import VoipMonitor.Proofs.CountryForeign

/-!
# When records for other callers do not matter

Without the records for other callers the table gives the same answer exactly when they leave the
search undisturbed. An answer shows where the search came to as soon as the records have different
countries.
-/

namespace VoipMonitor.Country
open VoipMonitor.Library

variable {IP : Type} {ip : IP} {data data' base before after : List (CountryPrefixRec IP)} {n : Bytes}
  {found found' : Option Nat} {r : CountryPrefixRec IP} {i : Nat} {l l' : Lookup}

/-! ## The table without the records for other callers -/

lemma SameLookup.refl (l : Lookup) : SameLookup l l := ⟨rfl, rfl, fun _ => Iff.rfl⟩

lemma SameLookup.symm (h : SameLookup l l') : SameLookup l' l :=
  ⟨h.country.symm, h.countryPrefix.symm, fun c => (h.countries c).symm⟩

lemma reduced_append (hown : isOwn ip r = true) :
    reduced ip (before ++ r :: after) = reduced ip before ++ r :: reduced ip after := by
  rw [reduced, List.filter_append, List.filter_cons_of_pos hown]
  rfl

lemma length_reduced (data : List (CountryPrefixRec IP)) :
    (reduced ip data).length = data.countP (isOwn ip) := List.countP_eq_length_filter.symm

lemma mem_reduced : r ∈ reduced ip data ↔ r ∈ data ∧ isOwn ip r = true := List.mem_filter

lemma sorted_reduced (ip : IP) (hsorted : SortedBy (fun r : CountryPrefixRec IP => r.key) data) :
    SortedBy (fun r : CountryPrefixRec IP => r.key) (reduced ip data) :=
  hsorted.sublist List.filter_sublist

lemma countryByIp_reduced :
    countryByIp (reduced ip data) (some ip) = countryByIp data (some ip) := by
  have hsame : (fun r : CountryPrefixRec IP => decide (isOwn ip r = true ∧ byFilter ip r = true)) =
      byFilter ip := by
    funext r
    rw [byFilter]
    cases isOwn ip r <;> simp
  rw [countryByIp_eq, countryByIp_eq, reduced, List.find?_filter, hsame]

/-! ## Undisturbed searches -/

section Sufficient
variable (hsorted : SortedBy (fun r : CountryPrefixRec IP => r.key) data)
include hsorted

lemma sameAnswer_of_ends (hsorted' : SortedBy (fun r : CountryPrefixRec IP => r.key) data')
    (harrival : arrival (numbersOf data) n = some found)
    (harrival' : arrival (numbersOf data') n = some found')
    (hsame : answer data ip found = answer data' ip found' ∨ ∃ l l', answer data ip found = some l ∧
      answer data' ip found' = some l' ∧ SameLookup l l') :
    SameAnswer ⟨data, base⟩ ⟨data', base⟩ n ip := by
  have hreturns : ∀ l, Returns ⟨data, base⟩ n ip l ↔ _ := fun l => getCountry_returns_iff hsorted harrival
  have hreturns' : ∀ l, Returns ⟨data', base⟩ n ip l ↔ _ := fun l => getCountry_returns_iff hsorted' harrival'
  rcases hsame with hsame | ⟨l, l', hanswer, hanswer', hsame⟩
  · have hiff : ∀ l, Returns ⟨data, base⟩ n ip l ↔ Returns ⟨data', base⟩ n ip l := by
      intro l
      rw [hreturns, hreturns', hsame]
    exact ⟨fun l hl => ⟨l, (hiff l).mp hl, .refl l⟩, fun l hl => ⟨l, (hiff l).mpr hl, .refl l⟩⟩
  · simp only [hanswer] at hreturns
    simp only [hanswer'] at hreturns'
    refine ⟨fun m hm => ⟨l', (hreturns' l').mpr rfl, ?_⟩, fun m hm => ⟨l, (hreturns l).mpr rfl, ?_⟩⟩
    · rw [(hreturns m).mp hm]
      exact hsame
    · rw [(hreturns' m).mp hm]
      exact hsame

lemma sameLookup_reduced (hdata : data = before ++ r :: after) (hown : isOwn ip r = true)
    (hunbroken : ∀ front x back, before = front ++ x :: back → x.number = r.number →
      isOwn ip x = true → ∀ y ∈ back, isOwn ip y = true) :
    SameLookup (lookupOf ip before r) (lookupOf ip (reduced ip before) r) := by
  subst hdata
  have hsorted' := sorted_reduced ip hsorted
  rw [reduced_append hown] at hsorted'
  refine ⟨rfl, rfl, fun c => ?_⟩
  rw [mem_countries hsorted, mem_countries hsorted']
  refine or_congr_right ⟨?_, ?_⟩
  · rintro ⟨front, x, back, rfl, hcode, hnumber, hx, -⟩
    exact ⟨reduced ip front, x, reduced ip back, reduced_append hx, hcode, hnumber, hx,
      fun y hy => (mem_reduced.mp hy).2⟩
  · rintro ⟨front', x, back', hbefore, hcode, hnumber, hx, -⟩
    have hmem : x ∈ reduced ip before := hbefore ▸ List.mem_append_cons_self
    obtain ⟨front, back, hsplit⟩ := List.append_of_mem (mem_reduced.mp hmem).1
    exact ⟨front, x, back, hsplit, hcode, hnumber, hx, hunbroken front x back hsplit hnumber hx⟩

lemma Undisturbed.sameAnswer (h : Undisturbed ip data n) :
    SameAnswer ⟨data, base⟩ ⟨reduced ip data, base⟩ n ip := by
  have hsorted' := sorted_reduced ip hsorted
  have hsame := h.same
  cases houtcome : outcome ip data n with
  | none =>
    rw [houtcome, Option.map_none] at hsame
    have hnone := Option.map_eq_none_iff.mp houtcome
    have hnone' := Option.map_eq_none_iff.mp hsame
    exact ⟨fun l hl => absurd hl (not_returns hsorted hnone),
      fun l hl => absurd hl (not_returns hsorted' hnone')⟩
  | some o =>
    rw [houtcome, Option.map_some] at hsame
    cases o with
    | none =>
      obtain ⟨found, harrival, hanswer⟩ := answer_of_outcome_none houtcome
      obtain ⟨found', harrival', hanswer'⟩ := answer_of_outcome_none hsame
      refine sameAnswer_of_ends hsorted hsorted' harrival harrival' (.inl ?_)
      rw [hanswer, hanswer', countryByIp_reduced]
    | some i =>
      obtain ⟨before, r, after, hdata, rfl, hown, -, harrival, hanswer⟩ :=
        answer_of_outcome_some houtcome
      obtain ⟨before', r', after', hdata', hlength, -, -, harrival', hanswer'⟩ :=
        answer_of_outcome_some hsame
      -- the same record is found
      have htake : data.take before.length = before := by rw [hdata, List.take_left]
      dsimp only at hlength
      rw [htake, ← length_reduced] at hlength
      have hsplit := hdata'
      rw [hdata, reduced_append hown] at hsplit
      obtain ⟨rfl, hcons⟩ := List.append_inj hsplit hlength.symm
      obtain ⟨rfl, -⟩ := List.cons.inj hcons
      refine sameAnswer_of_ends hsorted hsorted' harrival harrival' ?_
      rw [hanswer, hanswer', countryByIp_reduced]
      split
      · exact .inl rfl
      · exact .inr ⟨_, _, rfl, rfl, sameLookup_reduced hsorted hdata hown
          fun front x back => h.unbroken before r after hdata houtcome front x back⟩

end Sufficient

/-! ## Records with different countries -/

structure Distinct (data : List (CountryPrefixRec IP)) : Prop where
  nodup : (data.map CountryPrefixRec.countryCode).Nodup
  ne_nil : ∀ r ∈ data, r.countryCode ≠ []

lemma Distinct.split_unique {before' after' : List (CountryPrefixRec IP)} {r' : CountryPrefixRec IP}
    (h : Distinct (before ++ r :: after)) (hsplit : before ++ r :: after = before' ++ r' :: after')
    (hcode : r.countryCode = r'.countryCode) : before = before' ∧ r = r' ∧ after = after' := by
  have hlength : before.length = before'.length := by
    have hleft : ((before ++ r :: after).map CountryPrefixRec.countryCode)[before.length]? =
        some r.countryCode := by simp
    have hright : ((before ++ r :: after).map CountryPrefixRec.countryCode)[before'.length]? =
        some r.countryCode := by
      rw [hsplit, hcode]
      simp
    have hlt := (List.getElem?_eq_some_iff.mp hleft).1
    exact (List.getElem?_inj hlt h.nodup).mp (hleft.trans hright.symm)
  obtain ⟨hbefore, hcons⟩ := List.append_inj hsplit hlength
  exact ⟨hbefore, List.cons.inj hcons⟩

lemma Distinct.of_reduced (h : Distinct data) : Distinct (reduced ip data) :=
  ⟨h.nodup.sublist (List.filter_sublist.map _), fun r hr => h.ne_nil r (mem_reduced.mp hr).1⟩

lemma returns_iff_nil (hsorted : SortedBy (fun r : CountryPrefixRec IP => r.key) data)
    (harrival : arrival (numbersOf data) n = some found) :
    Returns ⟨data, []⟩ n ip l ↔ l = (answer data ip found).getD ⟨[], [], []⟩ := by
  rw [getCountry_returns_iff hsorted harrival]
  cases answer data ip found with
  | some l' => rfl
  | none =>
    dsimp only [Option.getD]
    constructor
    · rintro ⟨k, hk⟩
      exact (Option.some.inj (hk 0)).symm
    · rintro rfl
      exact ⟨0, fun fuel => rfl⟩

lemma Distinct.seen {o : Option Nat} (h : Distinct data) (houtcome : outcome ip data n = some o)
    (harrival : arrival (numbersOf data) n = some found) :
    (o = none ∧ answer data ip found = countryByIp data (some ip)) ∨
      ∃ before r after, data = before ++ r :: after ∧ o = some before.length ∧ isOwn ip r = true ∧
        isFirstByFilter ip data before.length = false ∧
        answer data ip found = some (lookupOf ip before r) := by
  cases o with
  | none =>
    obtain ⟨found', harrival', hanswer⟩ := answer_of_outcome_none houtcome
    obtain rfl := Option.some.inj (harrival.symm.trans harrival')
    exact .inl ⟨rfl, hanswer⟩
  | some i =>
    obtain ⟨before, r, after, hdata, rfl, hown, hfirst, harrival', hanswer⟩ :=
      answer_of_outcome_some houtcome
    obtain rfl := Option.some.inj (harrival.symm.trans harrival')
    have hmem : r ∈ data := hdata ▸ List.mem_append_cons_self
    rw [if_neg (h.ne_nil r hmem)] at hanswer
    exact .inr ⟨before, r, after, hdata, rfl, hown, hfirst, hanswer⟩

section Necessary
variable (h : Distinct data) (hsorted : SortedBy (fun r : CountryPrefixRec IP => r.key) data)
include h hsorted

lemma Distinct.last_not_own (hdata : data = before ++ r :: after) (hnumber : r.number = [])
    (honly : ∀ c ∈ (lookupOf ip before r).countries, c = r.countryCode) :
    before.getLast?.all (fun x => !isOwn ip x) = true := by
  rcases List.eq_nil_or_concat before with rfl | ⟨front, x, rfl⟩
  · rfl
  rw [List.concat_eq_append] at hdata honly ⊢
  rw [List.getLast?_concat, Option.all_some, Bool.not_eq_true']
  by_contra hx
  subst hdata
  have hle : codes x.number ≤ codes r.number :=
    (List.pairwise_append.mp hsorted).2.2 x List.mem_append_cons_self r List.mem_cons_self
  rw [hnumber] at hle
  have hxnumber : x.number = r.number := by
    rw [hnumber]
    exact codes_injective (le_antisymm hle (not_lt.mp (List.not_lt_nil _)))
  have hc : x.countryCode ∈ (lookupOf ip (front ++ [x]) r).countries :=
    (mem_countries hsorted).mpr (.inr ⟨front, x, [], rfl, rfl, hxnumber,
      Bool.not_eq_false _ ▸ hx, nofun⟩)
  rw [List.append_assoc, List.singleton_append] at h
  obtain ⟨hfront, -⟩ : front = front ++ [x] ∧ x = r ∧ [] ++ r :: after = after :=
    h.split_unique (by simp) (honly _ hc)
  exact absurd hfront (by simp)

lemma Distinct.not_sameLookup (hdata : data = before ++ r :: after)
    (hfirst : isFirstByFilter ip data before.length = false) :
    ¬SameLookup (lookupOf ip before r) ((countryByIp data (some ip)).getD ⟨[], [], []⟩) := by
  intro hsame
  rw [countryByIp_eq] at hsame
  cases hfind : data.find? (byFilter ip) with
  | none =>
    rw [hfind] at hsame
    exact h.ne_nil r (hdata ▸ List.mem_append_cons_self) hsame.country
  | some e =>
    rw [hfind] at hsame
    obtain ⟨he, front, back, hsplit, hfront⟩ := List.find?_eq_some_iff_append.mp hfind
    subst hdata
    obtain ⟨rfl, rfl, rfl⟩ := h.split_unique hsplit hsame.country
    have hlast := h.last_not_own hsorted rfl hsame.countryPrefix
      fun c hc => List.mem_singleton.mp ((hsame.countries c).mp hc)
    have htrue : isFirstByFilter ip (before ++ r :: after) before.length = true := by
      rw [isFirstByFilter, List.take_left, hlast, List.all_eq_true.mpr hfront]
      simp [he]
    exact Bool.false_ne_true (hfirst.symm.trans htrue)

lemma Distinct.unbroken (hdata : data = before ++ r :: after) (hown : isOwn ip r = true)
    (hsame : SameLookup (lookupOf ip before r) (lookupOf ip (reduced ip before) r)) :
    ∀ front x back, before = front ++ x :: back → x.number = r.number → isOwn ip x = true →
      ∀ y ∈ back, isOwn ip y = true := by
  rintro front x back rfl hnumber hx
  subst hdata
  have hsorted' := sorted_reduced ip hsorted
  rw [reduced_append hown] at hsorted'
  have hc : x.countryCode ∈ (lookupOf ip (reduced ip (front ++ x :: back)) r).countries :=
    (mem_countries hsorted').mpr (.inr ⟨reduced ip front, x, reduced ip back, reduced_append hx, rfl,
      hnumber, hx, fun y hy => (mem_reduced.mp hy).2⟩)
  rw [List.append_assoc, List.cons_append] at h
  rcases (mem_countries hsorted).mp ((hsame.countries _).mpr hc) with
    hcode | ⟨front₂, x₂, back₂, hsplit, hcode, -, -, hback₂⟩
  · -- the country of the record itself stands behind
    obtain ⟨hfront, -⟩ : front = front ++ x :: back ∧ x = r ∧ back ++ r :: after = after :=
      h.split_unique (by simp) hcode
    exact absurd (congrArg List.length hfront) (by simp)
  · obtain ⟨-, -, hback⟩ : front = front₂ ∧ x = x₂ ∧ back ++ r :: after = back₂ ++ r :: after :=
      h.split_unique (by rw [← List.cons_append, ← List.append_assoc, hsplit, List.append_assoc,
        List.cons_append]) hcode.symm
    exact List.append_cancel_right hback ▸ hback₂

lemma Distinct.undisturbed_of_found {before' after' : List (CountryPrefixRec IP)}
    {r' : CountryPrefixRec IP} (hdata : data = before ++ r :: after) (hown : isOwn ip r = true)
    (hdata' : reduced ip data = before' ++ r' :: after')
    (houtcome : outcome ip data n = some (some before.length))
    (houtcome' : outcome ip (reduced ip data) n = some (some before'.length))
    (hsame : SameLookup (lookupOf ip before r) (lookupOf ip before' r')) : Undisturbed ip data n := by
  have hreduced : reduced ip data = reduced ip before ++ r :: reduced ip after := by
    rw [hdata, reduced_append hown]
  have h' : Distinct (reduced ip data) := h.of_reduced
  obtain ⟨rfl, rfl, rfl⟩ :
      reduced ip before = before' ∧ r = r' ∧ reduced ip after = after' := by
    rw [hreduced] at h' hdata'
    exact h'.split_unique hdata' hsame.country
  refine ⟨?_, fun front r₂ back hdata₂ hfound => ?_⟩
  · rw [houtcome, houtcome', Option.map_some, Option.map_some, length_reduced, hdata,
      List.take_left]
  · rw [houtcome] at hfound
    obtain ⟨rfl, hcons⟩ := List.append_inj (hdata.symm.trans hdata₂)
      (Option.some.inj (Option.some.inj hfound))
    obtain ⟨rfl, rfl⟩ := List.cons.inj hcons
    exact h.unbroken hsorted hdata hown hsame

lemma Distinct.undisturbed (hsame : SameAnswer ⟨data, []⟩ ⟨reduced ip data, []⟩ n ip) :
    Undisturbed ip data n := by
  have hsorted' := sorted_reduced ip hsorted
  have h' : Distinct (reduced ip data) := h.of_reduced
  cases houtcome : outcome ip data n with
  | none =>
    have hnone := Option.map_eq_none_iff.mp houtcome
    have hnone' : arrival (numbersOf (reduced ip data)) n = none := by
      cases harrival' : arrival (numbersOf (reduced ip data)) n with
      | none => rfl
      | some found' =>
        obtain ⟨l, hl, -⟩ := hsame.back _ ((returns_iff_nil hsorted' harrival').mpr rfl)
        exact absurd hl (not_returns hsorted hnone)
    refine ⟨?_, fun before r after hdata hfound => ?_⟩
    · rw [houtcome, outcome, hnone']
      rfl
    · rw [houtcome] at hfound
      cases hfound
  | some o =>
    obtain ⟨found, harrival, -⟩ := Option.map_eq_some_iff.mp houtcome
    obtain ⟨l', hl', hlookup⟩ := hsame.forth _ ((returns_iff_nil hsorted harrival).mpr rfl)
    obtain ⟨found', harrival'⟩ : ∃ found', arrival (numbersOf (reduced ip data)) n = some found' :=
      Option.ne_none_iff_exists'.mp fun hnone' => not_returns hsorted' hnone' hl'
    rw [(returns_iff_nil hsorted' harrival').mp hl'] at hlookup
    obtain ⟨o', houtcome'⟩ : ∃ o', outcome ip (reduced ip data) n = some o' := by
      rw [outcome, harrival']
      exact ⟨_, rfl⟩
    rcases h.seen houtcome harrival with
      ⟨rfl, hanswer⟩ | ⟨before, r, after, hdata, rfl, hown, hfirst, hanswer⟩
    · rcases h'.seen houtcome' harrival' with
        ⟨rfl, -⟩ | ⟨before', r', after', hdata', rfl, -, hfirst', hanswer'⟩
      · refine ⟨?_, fun before r after hdata hfound => ?_⟩
        · rw [houtcome, houtcome']
          rfl
        · rw [houtcome] at hfound
          cases hfound
      · -- the reduced table finds a record that the other answer hides
        rw [hanswer, hanswer', ← countryByIp_reduced] at hlookup
        exact absurd hlookup.symm (h'.not_sameLookup hsorted' hdata' hfirst')
    · rcases h'.seen houtcome' harrival' with
        ⟨rfl, hanswer'⟩ | ⟨before', r', after', hdata', rfl, -, -, hanswer'⟩
      · rw [hanswer, hanswer', countryByIp_reduced] at hlookup
        exact absurd hlookup (h.not_sameLookup hsorted hdata hfirst)
      · rw [hanswer, hanswer'] at hlookup
        exact h.undisturbed_of_found hsorted hdata hown hdata' houtcome houtcome' hlookup

end Necessary

/-! ## Other countries in the table -/

def bare (r : CountryPrefixRec IP) : CountryPrefixRec IP := { r with countryCode := [] }

lemma map_bare_withCodes (code : Nat → Bytes) (data : List (CountryPrefixRec IP)) :
    (withCodes code data).map bare = data.map bare := by
  refine List.ext_getElem? fun i => ?_
  rw [List.getElem?_map, List.getElem?_map, withCodes, List.getElem?_mapIdx, Option.map_map]
  rfl

lemma reduced_map_bare (data : List (CountryPrefixRec IP)) :
    reduced ip (data.map bare) = (reduced ip data).map bare := List.filter_map

lemma countP_map_bare (data : List (CountryPrefixRec IP)) :
    (data.map bare).countP (isOwn ip) = data.countP (isOwn ip) := List.countP_map

lemma isFirstByFilter_map_bare (data : List (CountryPrefixRec IP)) (i : Nat) :
    isFirstByFilter ip (data.map bare) i = isFirstByFilter ip data i := by
  rw [isFirstByFilter, isFirstByFilter, List.getElem?_map, Option.any_map, ← List.map_take,
    List.all_map, List.getLast?_map, Option.all_map]
  rfl

lemma outcome_map_bare (data : List (CountryPrefixRec IP)) :
    outcome ip (data.map bare) n = outcome ip data n := by
  have hnumbers : numbersOf (data.map bare) = numbersOf data := List.map_map
  have hcond : (fun i => ((data.map bare)[i]?).any (isOwn ip) && !isFirstByFilter ip (data.map bare) i) =
      fun i => (data[i]?).any (isOwn ip) && !isFirstByFilter ip data i := by
    funext i
    rw [isFirstByFilter_map_bare, List.getElem?_map, Option.any_map]
    rfl
  rw [outcome, outcome, hnumbers, hcond]

lemma undisturbed_map_bare : Undisturbed ip (data.map bare) n ↔ Undisturbed ip data n := by
  constructor
  · rintro ⟨hsame, hunbroken⟩
    rw [reduced_map_bare, outcome_map_bare, outcome_map_bare] at hsame
    simp only [← List.map_take, countP_map_bare] at hsame
    refine ⟨hsame, ?_⟩
    rintro before r after rfl hfound front x back rfl hnumber hx y hy
    rw [outcome_map_bare] at hunbroken
    refine hunbroken ((front ++ x :: back).map bare) (bare r) (after.map bare) ?_ ?_ (front.map bare)
      (bare x) (back.map bare) ?_ hnumber hx (bare y) (List.mem_map_of_mem hy)
    · rw [List.map_append, List.map_cons]
    · rw [hfound, List.length_map]
    · rw [List.map_append, List.map_cons]
  · rintro ⟨hsame, hunbroken⟩
    refine ⟨?_, ?_⟩
    · rw [reduced_map_bare, outcome_map_bare, outcome_map_bare]
      simp only [← List.map_take, countP_map_bare]
      exact hsame
    intro before r after hdata hfound front x back hbefore hnumber hx y hy
    rw [outcome_map_bare] at hfound
    obtain ⟨before, rest, hsplit, rfl, hrest⟩ := List.map_eq_append_iff.mp hdata
    obtain ⟨r, after, rfl, rfl, rfl⟩ := List.map_eq_cons_iff.mp hrest
    obtain ⟨front, rest, hfront, rfl, hrest'⟩ := List.map_eq_append_iff.mp hbefore
    obtain ⟨x, back, rfl, rfl, rfl⟩ := List.map_eq_cons_iff.mp hrest'
    obtain ⟨y, hmem, rfl⟩ := List.mem_map.mp hy
    rw [List.length_map] at hfound
    exact hunbroken before r after hsplit hfound front x back hfront hnumber hx y hmem

lemma undisturbed_withCodes (code : Nat → Bytes) :
    Undisturbed ip (withCodes code data) n ↔ Undisturbed ip data n := by
  rw [← undisturbed_map_bare, map_bare_withCodes, undisturbed_map_bare]

lemma sorted_withCodes (code : Nat → Bytes)
    (hsorted : SortedBy (fun r : CountryPrefixRec IP => r.key) data) :
    SortedBy (fun r : CountryPrefixRec IP => r.key) (withCodes code data) := by
  have hkeys : (withCodes code data).map CountryPrefixRec.key = data.map CountryPrefixRec.key := by
    have hbare := congrArg (List.map CountryPrefixRec.key) (map_bare_withCodes code data)
    rwa [List.map_map, List.map_map] at hbare
  rw [SortedBy, ← List.pairwise_map, hkeys, List.pairwise_map]
  exact hsorted

def ownCode (i : Nat) : Bytes := 1 :: List.replicate i 0

lemma distinct_ownCode (data : List (CountryPrefixRec IP)) : Distinct (withCodes ownCode data) := by
  have hcodes : (withCodes ownCode data).map CountryPrefixRec.countryCode =
      (List.range data.length).map ownCode := by
    refine List.ext_getElem (by simp [withCodes]) fun i hi hi' => ?_
    simp [withCodes]
  have hinj : Function.Injective ownCode := by
    intro i j hij
    have hlength := congrArg List.length hij
    simpa [ownCode] using hlength
  refine ⟨?_, fun r hr => ?_⟩
  · rw [hcodes]
    exact List.nodup_range.map hinj
  · obtain ⟨i, -, hcode⟩ := List.mem_map.mp (hcodes ▸ List.mem_map_of_mem hr)
    rw [← hcode]
    exact List.cons_ne_nil _ _

/-- The records for other callers do not change what `_getCountry` gives, whatever the countries of
the records and the base table are, exactly when they leave the search undisturbed. -/
theorem getCountry_unchanged_iff (sort : Sorter (fun r : CountryPrefixRec IP => r.key))
    (rows : List (CountryPrefixRec IP)) (n : Bytes) (ip : IP) :
    (∀ (code : Nat → Bytes) (base : List (CountryPrefixRec IP)),
      SameAnswer ⟨withCodes code (sort.sort rows), base⟩
        ⟨reduced ip (withCodes code (sort.sort rows)), base⟩ n ip) ↔
      Undisturbed ip (sort.sort rows) n := by
  have hsorted : SortedBy (fun r : CountryPrefixRec IP => r.key) (sort.sort rows) := sort.sorted rows
  constructor
  · intro hsame
    have h := (distinct_ownCode (sort.sort rows)).undisturbed (sorted_withCodes _ hsorted)
      (hsame ownCode [])
    exact (undisturbed_withCodes _).mp h
  · intro h code base
    exact Undisturbed.sameAnswer (sorted_withCodes code hsorted) ((undisturbed_withCodes code).mpr h)

/-- The longest prefix belongs to another caller, and the record with the shorter one is not looked
at. -/
theorem getCountry_shadowed :
    ¬∀ (sort : Sorter (fun r : CountryPrefixRec Nat => r.key))
      (rows base : List (CountryPrefixRec Nat)) (n : Bytes) (ip : Nat),
      SameAnswer (load sort rows base)
        ⟨reduced ip (load sort rows base).customerDataSimple, (load sort rows base).data⟩ n ip := by
  intro h
  have hsame := h (.insertion _)
    [⟨ascii "42", ascii "AA", none⟩, ⟨ascii "420", ascii "BB", some fun _ => false⟩] []
    (ascii "4201") 0
  obtain ⟨l, ⟨k, hk⟩, hl⟩ := hsame.forth ⟨[], [], []⟩ ⟨1, fun fuel => rfl⟩
  have hl' := hk 1
  rw [Nat.add_comm] at hl'
  have hvalue : getCountry (k + 1) ⟨reduced 0 (load (.insertion _)
      [(⟨ascii "42", ascii "AA", none⟩ : CountryPrefixRec Nat),
        ⟨ascii "420", ascii "BB", some fun _ => false⟩] []).customerDataSimple, []⟩
      (ascii "4201") (some 0) = some ⟨ascii "AA", [ascii "AA"], ascii "42"⟩ := rfl
  have hcountry := hl.country
  rw [← Option.some.inj (hvalue.symm.trans hl')] at hcountry
  exact absurd hcountry (by decide)

end VoipMonitor.Country
