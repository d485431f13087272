import Polling.Address.Parser
import Polling.Address.Printer
import Polling.Proofs.Text.Digits

namespace Polling.Address

theorem octet?_toDigits (o : UInt8) {rest : List Char}
    (hr : ∀ c ∈ rest.head?, c.isDigit = false) :
    octet? (Nat.toDigits 10 o.toNat ++ rest) = some (o, rest) := by
  have digits : ∀ c ∈ Nat.toDigits 10 o.toNat, c.isDigit = true :=
    fun c hc => Text.isDigit_of_mem hc
  have bound := o.toNat_lt
  -- Every byte has one to three digits, so the reader takes all of them.
  have short : (Nat.toDigits 10 o.toNat).length ≤ 3 :=
    (Nat.length_toDigits_le_iff (by decide) (by decide)).2 (by omega)
  have some_digit : 0 < (Nat.toDigits 10 o.toNat).length := Nat.length_toDigits_pos
  have proper : (Nat.toDigits 10 o.toNat).length ∈ [1, 2, 3] ∧
      ((Nat.toDigits 10 o.toNat).head? = some '0' → (Nat.toDigits 10 o.toNat).length = 1) ∧
      o.toNat ≤ 255 := by
    refine ⟨?_, ?_, by omega⟩
    · simp only [List.mem_cons, List.not_mem_nil, or_false]
      omega
    · intro h
      rw [Text.eq_zero_of_head?_toDigits (by decide) h]
      rfl
  unfold octet?
  rw [Text.takeWhile_of_stops digits hr, Text.dropWhile_of_stops digits hr]
  dsimp only
  rw [Nat.ofDigitChars_ten_toDigits, if_pos proper]
  exact congrArg (fun a => some (a, rest)) UInt8.ofNat_toNat

/-- The text of four octets. -/
theorem octetsText_toList (a b c d : UInt8) :
    octetsText [a, b, c, d] = Nat.toDigits 10 a.toNat ++ '.' :: (Nat.toDigits 10 b.toNat ++
      '.' :: (Nat.toDigits 10 c.toNat ++ '.' :: Nat.toDigits 10 d.toNat)) := rfl

theorem octets?_octetsText (a b c d : UInt8) :
    octets? (octetsText [a, b, c, d]) = some (#v[a, b, c, d], []) := by
  have point (cs : List Char) : ∀ x ∈ ('.' :: cs).head?, x.isDigit = false := by
    intro x hx
    cases hx
    rfl
  have last : octet? (Nat.toDigits 10 d.toNat ++ []) = some (d, []) := octet?_toDigits d (by simp)
  rw [List.append_nil] at last
  rw [octetsText_toList, octets?, octet?_toDigits a (point _)]
  simp only [Option.bind_eq_bind, Option.bind_some, after?, if_true, octet?_toDigits b (point _),
    octet?_toDigits c (point _), last]
  rfl

/-- What has no point after its first digits does not start with four octets. -/
theorem octets?_eq_none {cs : List Char} (h : (cs.dropWhile Char.isDigit).head? ≠ some '.') :
    octets? cs = none := by
  have none_after : after? '.' (cs.dropWhile Char.isDigit) = none := by
    cases hd : cs.dropWhile Char.isDigit with
    | nil => rfl
    | cons c rest =>
      rw [hd, List.head?_cons, Ne, Option.some_inj] at h
      exact if_neg h
  rw [octets?, octet?]
  dsimp only
  split
  · simp [none_after]
  · rfl

theorem octets?_of_colon (cs : List Char) : octets? (':' :: cs) = none :=
  octets?_eq_none (by simp [show Char.isDigit ':' = false from rfl])

def AfterGroup (cs : List Char) : Prop := ∀ c ∈ cs.head?, c = ':'

theorem afterGroup_nil : AfterGroup [] := by simp [AfterGroup]

theorem afterGroup_colon (cs : List Char) : AfterGroup (':' :: cs) := by simp [AfterGroup]

theorem group?_toDigits (g : UInt16) {rest : List Char} (hr : AfterGroup rest) :
    group? (Nat.toDigits 16 g.toNat ++ rest) = some (g, rest) := by
  have digits : ∀ c ∈ Nat.toDigits 16 g.toNat, (Text.hexDigit? c).isSome = true :=
    fun c hc => Text.isSome_hexDigit?_of_mem hc
  have stops : ∀ c ∈ rest.head?, (Text.hexDigit? c).isSome = false := by
    intro c hc
    rw [hr c hc]
    rfl
  have bound := g.toNat_lt
  have short : (Nat.toDigits 16 g.toNat).length ≤ 4 :=
    (Nat.length_toDigits_le_iff (by decide) (by decide)).2 (by omega)
  have some_digit : 0 < (Nat.toDigits 16 g.toNat).length := Nat.length_toDigits_pos
  have proper : (Nat.toDigits 16 g.toNat).length ∈ [1, 2, 3, 4] := by
    simp only [List.mem_cons, List.not_mem_nil, or_false]
    omega
  unfold group?
  rw [Text.takeWhile_of_stops digits stops]
  dsimp only
  rw [if_pos proper, Text.ofHexDigits_toDigits, List.drop_left]
  exact congrArg (fun a => some (a, rest)) UInt16.ofNat_toNat

theorem head?_dropWhile_append {p : Char → Bool} {x : Char} {cs rest : List Char} (h : x ∉ cs)
    (hx : ((cs ++ rest).dropWhile p).head? = some x) : (rest.dropWhile p).head? = some x := by
  induction cs with
  | nil => exact hx
  | cons c cs ih =>
    rw [List.mem_cons, not_or] at h
    rw [List.cons_append, List.dropWhile_cons] at hx
    split at hx
    · exact ih h.2 hx
    · rw [List.head?_cons, Option.some_inj] at hx
      exact absurd hx.symm h.1

/-- A group is not the start of four octets. -/
theorem octets?_of_group (g : UInt16) {rest : List Char} (hr : AfterGroup rest) :
    octets? (Nat.toDigits 16 g.toNat ++ rest) = none := by
  have no_point : '.' ∉ Nat.toDigits 16 g.toNat := by
    intro h
    exact absurd (Text.isSome_hexDigit?_of_mem h) (by decide)
  apply octets?_eq_none
  intro h
  have hd := head?_dropWhile_append no_point h
  cases rest with
  | nil => cases hd
  | cons c rest =>
    rw [hr c rfl] at hd
    cases hd

def NoGroup (cs : List Char) : Prop :=
  ∀ first room, readGroups first room cs = ⟨[], false, cs⟩

theorem noGroup_nil : NoGroup [] := by
  intro first room
  have octets : octets? [] = none := rfl
  have group : group? [] = none := rfl
  cases room with
  | zero => rfl
  | succ room => cases first <;> simp [readGroups, after?, octets, group]

/-- Two colons stand for zero groups, so no group starts with the second of them. -/
theorem noGroup_colons (cs : List Char) : NoGroup (':' :: ':' :: cs) := by
  intro first room
  have group (cs : List Char) : group? (':' :: cs) = none := rfl
  cases room with
  | zero => rfl
  | succ room => cases first <;> simp [readGroups, after?, octets?_of_colon, group]

def laterGroupsText (groups : List UInt16) : List Char :=
  groups.flatMap fun g => ':' :: Nat.toDigits 16 g.toNat

theorem groupsText_cons (g : UInt16) (gs : List UInt16) :
    groupsText (g :: gs) = Nat.toDigits 16 g.toNat ++ laterGroupsText gs := by
  induction gs generalizing g with
  | nil => rw [laterGroupsText, List.flatMap_nil, List.append_nil]; rfl
  | cons h gs ih =>
    change Nat.toDigits 16 g.toNat ++ ':' :: groupsText (h :: gs) = _
    rw [ih]
    rfl

theorem afterGroup_later (gs : List UInt16) {rest : List Char} (hr : AfterGroup rest) :
    AfterGroup (laterGroupsText gs ++ rest) := by
  cases gs with
  | nil => exact hr
  | cons g gs => exact afterGroup_colon _

/-- One group is read, and then those that follow it. -/
theorem readGroups_of_group {first : Bool} {room : Nat} {cs body rest : List Char} (g : UInt16)
    (hb : (if first then some cs else after? ':' cs) = some body)
    (hg : body = Nat.toDigits 16 g.toNat ++ rest) (hr : AfterGroup rest) :
    readGroups first (room + 1) cs =
      { readGroups false room rest with groups := g :: (readGroups false room rest).groups } := by
  rw [readGroups, hb]
  dsimp only
  rw [hg, octets?_of_group g hr, group?_toDigits g hr, ite_self]

theorem readGroups_later {gs : List UInt16} {room : Nat} {rest : List Char}
    (h : gs.length ≤ room) (hr : AfterGroup rest) (hn : NoGroup rest) :
    readGroups false room (laterGroupsText gs ++ rest) = ⟨gs, false, rest⟩ := by
  induction gs generalizing room with
  | nil => exact hn false room
  | cons g gs ih =>
    obtain ⟨room, rfl⟩ : ∃ n, room = n + 1 := ⟨room - 1, by simp at h; omega⟩
    have opened : (if false then some (laterGroupsText (g :: gs) ++ rest)
        else after? ':' (laterGroupsText (g :: gs) ++ rest)) =
          some (Nat.toDigits 16 g.toNat ++ (laterGroupsText gs ++ rest)) := by
      simp [laterGroupsText, after?]
    rw [readGroups_of_group g opened rfl (afterGroup_later gs hr), ih (by simpa using h)]

/-- Groups are read as they are written, up to where no group follows. -/
theorem readGroups_groupsText {gs : List UInt16} {room : Nat} {rest : List Char}
    (h : gs.length ≤ room) (hr : AfterGroup rest) (hn : NoGroup rest) :
    readGroups true room (groupsText gs ++ rest) = ⟨gs, false, rest⟩ := by
  cases gs with
  | nil => exact hn true room
  | cons g gs =>
    obtain ⟨room, rfl⟩ : ∃ n, room = n + 1 := ⟨room - 1, by simp at h; omega⟩
    rw [groupsText_cons, List.append_assoc,
      readGroups_of_group g (if_pos rfl) rfl (afterGroup_later gs hr),
      readGroups_later (by simpa using h) hr hn]

theorem readGroups_of_groupsText {gs : List UInt16} {room : Nat} (h : gs.length ≤ room) :
    readGroups true room (groupsText gs) = ⟨gs, false, []⟩ := by
  have read := readGroups_groupsText h afterGroup_nil noGroup_nil
  rwa [List.append_nil] at read

theorem replicate_zerosInFront (gs : List UInt16) :
    List.replicate (zerosInFront gs) 0 ++ gs.drop (zerosInFront gs) = gs := by
  induction gs with
  | nil => rfl
  | cons g gs ih =>
    by_cases hg : g = 0
    · have next : zerosInFront (g :: gs) = zerosInFront gs + 1 := by simp [zerosInFront, hg]
      rw [next, List.replicate_succ, List.drop_succ_cons, List.cons_append, ih, hg]
    · have none : zerosInFront (g :: gs) = 0 := by simp [zerosInFront, hg]
      rw [none]
      rfl

/-- What the longest run covers is zeros. -/
theorem replicate_longestZeroRun (gs : List UInt16) :
    gs.take (longestZeroRun gs).1 ++ (List.replicate (longestZeroRun gs).2 0 ++
      gs.drop ((longestZeroRun gs).1 + (longestZeroRun gs).2)) = gs := by
  induction gs with
  | nil => rfl
  | cons g gs ih =>
    rw [longestZeroRun]
    split
    · rw [List.take_zero, List.nil_append, Nat.zero_add, replicate_zerosInFront]
    · rw [List.take_succ_cons, Nat.add_right_comm, List.drop_succ_cons, List.cons_append, ih]

theorem ofGroups?_toList (g : Vector UInt16 8) : ofGroups? g.toList = some (v6 g) := by
  rw [ofGroups?, dif_pos (by simp)]
  rfl

theorem octets?_of_groupsText {gs : List UInt16} {rest : List Char} (hr : AfterGroup rest)
    (hc : gs = [] → octets? rest = none) : octets? (groupsText gs ++ rest) = none := by
  cases gs with
  | nil => exact hc rfl
  | cons g gs =>
    rw [groupsText_cons, List.append_assoc]
    exact octets?_of_group g (afterGroup_later gs hr)

/-- A text that starts with no four octets is read as groups. -/
theorem ofChars?_of_v6? {cs : List Char} {a : Address} (ho : octets? cs = none)
    (h : v6? cs = some (a, [])) : ofChars? cs = some a := by
  rw [ofChars?, ho]
  simp [h]

/-- Eight groups that are all written. -/
theorem v6?_full (g : Vector UInt16 8) : v6? (groupsText g.toList) = some (v6 g, []) := by
  rw [v6?, readGroups_of_groupsText (by simp)]
  simp [ofGroups?_toList]

/-- Groups before and after two colons, with zeros between them. -/
theorem v6?_of_parts (g : Vector UInt16 8) {before after : List UInt16} {zeros : Nat}
    {cs body : List Char} {inOctets : Bool}
    (head : readGroups true 8 cs = ⟨before, false, ':' :: ':' :: body⟩)
    (tail : readGroups true (7 - before.length) body = ⟨after, inOctets, []⟩)
    (hg : before ++ (List.replicate zeros 0 ++ after) = g.toList) (hz : 0 < zeros) :
    v6? cs = some (v6 g, []) := by
  have length := congrArg List.length hg
  simp only [List.length_append, List.length_replicate, Vector.length_toList] at length
  have left : 8 - before.length - after.length = zeros := by omega
  have some_zero : before.length ≠ 8 := by omega
  rw [v6?, head]
  simp [some_zero, after?, tail, left, hg, ofGroups?_toList]

/-- Groups around two colons that stand for a run of zeros. -/
theorem v6?_shortened (g : Vector UInt16 8) {before after : List UInt16} {zeros : Nat}
    (hg : before ++ (List.replicate zeros 0 ++ after) = g.toList) (hz : 0 < zeros) :
    v6? (groupsText before ++ ':' :: ':' :: groupsText after) = some (v6 g, []) := by
  have length := congrArg List.length hg
  simp only [List.length_append, List.length_replicate, Vector.length_toList] at length
  have head : readGroups true 8 (groupsText before ++ ':' :: ':' :: groupsText after) =
      ⟨before, false, ':' :: ':' :: groupsText after⟩ :=
    readGroups_groupsText (by omega) (afterGroup_colon _) (noGroup_colons _)
  have room : after.length ≤ 7 - before.length := by omega
  exact v6?_of_parts g head (readGroups_of_groupsText room) hg hz

/-- The two octets of a group make the group. -/
theorem ofOctets_groupBytes (g : UInt16) :
    (g >>> 8).toUInt8.toUInt16 <<< 8 ||| g.toUInt8.toUInt16 = g := by
  have bound := g.toNat_lt
  have high : g.toNat / 2 ^ 8 % 2 ^ 8 = g.toNat / 2 ^ 8 := Nat.mod_eq_of_lt (by omega)
  have low : g.toNat % 2 ^ 8 < 2 ^ 8 := Nat.mod_lt _ (by decide)
  apply UInt16.toNat_inj.1
  simp only [UInt16.toNat_or, UInt16.toNat_shiftLeft, UInt8.toNat_toUInt16, UInt16.toNat_toUInt8,
    UInt16.toNat_shiftRight, UInt16.reduceToNat, Nat.reduceMod, Nat.shiftRight_eq_div_pow]
  rw [high, Nat.mod_eq_of_lt (by rw [Nat.shiftLeft_eq]; omega),
    ← Nat.shiftLeft_add_eq_or_of_lt low, Nat.shiftLeft_eq]
  omega

theorem octetGroups_groupBytes (a b : UInt16) :
    octetGroups #v[(a >>> 8).toUInt8, a.toUInt8, (b >>> 8).toUInt8, b.toUInt8] = [a, b] := by
  change [(a >>> 8).toUInt8.toUInt16 <<< 8 ||| a.toUInt8.toUInt16,
    (b >>> 8).toUInt8.toUInt16 <<< 8 ||| b.toUInt8.toUInt16] = [a, b]
  rw [ofOctets_groupBytes a, ofOctets_groupBytes b]

/-- Groups that end in four octets. -/
theorem readGroups_octetsText (room : Nat) (a b c d : UInt8) :
    readGroups false (room + 2) (':' :: octetsText [a, b, c, d]) =
      ⟨octetGroups #v[a, b, c, d], true, []⟩ := by
  simp [readGroups, after?, octets?_octetsText]

/-- An address that maps an IPv4 one. -/
theorem v6?_mapped (g : Vector UInt16 8) {octets : List UInt8}
    (h : mappedOctets? g.toList = some octets) :
    v6? ("::ffff:".toList ++ octetsText octets) = some (v6 g, []) := by
  obtain ⟨⟨groups⟩, hl⟩ := g
  match groups, hl with
  | [_, _, _, _, _, _, a, b], hl =>
    unfold mappedOctets? at h
    split at h
    · next hg =>
      cases h
      cases hg
      -- The zeros are those between the two colons and the group of ones, which is read as such.
      have tail : readGroups true 7 (Nat.toDigits 16 (0xffff : UInt16).toNat ++
          ':' :: octetsText ([a, b].flatMap groupBytes)) = ⟨[0xffff, a, b], true, []⟩ := by
        have last := readGroups_octetsText 4 (a >>> 8).toUInt8 a.toUInt8 (b >>> 8).toUInt8 b.toUInt8
        rw [octetGroups_groupBytes] at last
        rw [readGroups_of_group 0xffff (if_pos rfl) rfl (afterGroup_colon _)]
        exact congrArg (fun more : Groups => { more with groups := 0xffff :: more.groups }) last
      have parts : [] ++ (List.replicate 5 0 ++ [0xffff, a, b]) = [0, 0, 0, 0, 0, 0xffff, a, b] :=
        rfl
      exact v6?_of_parts _ (noGroup_colons _ true 8) tail parts (by decide)
    · cases h

theorem ofChars?_toChars (a : Address) : ofChars? a.toChars = some a := by
  cases a with
  | v4 octets =>
    obtain ⟨⟨os⟩, hl⟩ := octets
    match os, hl with
    | [a, b, c, d], hl =>
      have read := octets?_octetsText a b c d
      change ofChars? (octetsText [a, b, c, d]) = _
      rw [ofChars?, read]
      rfl
  | v6 groups =>
    -- The printer takes one of three ways; in none does the text start with four octets.
    have cover := replicate_longestZeroRun groups.toList
    rw [toChars]
    dsimp only
    split
    · next octets h => exact ofChars?_of_v6? (octets?_of_colon _) (v6?_mapped groups h)
    · split
      · next hz =>
        apply ofChars?_of_v6? _ (v6?_shortened groups cover (by omega))
        exact octets?_of_groupsText (afterGroup_colon _) fun _ => octets?_of_colon _
      · have none : octets? (groupsText groups.toList ++ []) = none :=
          octets?_of_groupsText afterGroup_nil fun _ => rfl
        rw [List.append_nil] at none
        exact ofChars?_of_v6? none (v6?_full groups)

theorem ofString?_toString (a : Address) : ofString? (toString a) = some a :=
  (congrArg ofChars? String.toList_ofList).trans (ofChars?_toChars a)

end Polling.Address
