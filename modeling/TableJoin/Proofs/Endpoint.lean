import TableJoin.Proofs.Text.Bytes
import TableJoin.Proofs.Markup.Locality
import TableJoin.Endpoint

/-!
The endpoint of a service, made from bytes: the name is looked for in the base in small letters,
and the base is split where it is found there.  The offsets hold for the base too, because a
letter made small takes as many bytes as before.
-/

namespace TableJoin

open Numeral (Fault)
open Text

section Steps

/-- The last three bytes, or all if there are fewer. -/
def lastThree (bs : List UInt8) : List UInt8 :=
  bs.drop (bs.length - 3)

/-- The base ends in the name of a service, in any case. -/
def EndsInService (base : String) : Prop :=
  ∃ name ∈ serviceNames, SameLetters (lastThree (utf8 base)) (bytes name)

instance (base : String) : Decidable (EndsInService base) :=
  inferInstanceAs (Decidable (∃ name ∈ serviceNames, _))

def threeBefore (n : Nat) : Except Fault Nat :=
  if 3 ≤ n then .ok (n - 3) else .error .overflow

/-- The first offset of the name that the bytes end in, if it is the name of a service. -/
def findService (lower : List UInt8) : Except Fault (Option Nat) :=
  if serviceNames.any fun name => (bytes name).isSuffixOf lower then do
    let (_, name) ← splitBytes (← threeBefore lower.length) lower
    return findBytes name lower
  else
    return none

/-- The steps that make the bytes of an endpoint. -/
def endpointSteps (base workspace service : List UInt8) : Except Fault (List UInt8) := do
  match ← findService (base.map lowerByte) with
  | some start =>
    let (before, _) ← splitBytes start base
    let (_, after) ← splitBytes (start + 3) base
    return before ++ workspace ++ utf8 "/" ++ service ++ after
  | none => return base ++ utf8 "/" ++ workspace ++ utf8 "/" ++ service

end Steps

section Names

theorem serviceNames_spec : ∀ name ∈ serviceNames, name.length = 3 ∧
    (∀ c ∈ name, c.toNat < 128) ∧ name.map Char.toLower = name := by
  have hall : ∀ name ∈ serviceNames, name.length = 3 ∧
      name.all (fun c => decide (c.toNat < 128)) = true ∧ name.map Char.toLower = name := by
    decide +kernel
  intro name hname
  obtain ⟨hlength, hascii, hsmall⟩ := hall name hname
  exact ⟨hlength, fun c hc => of_decide_eq_true (List.all_eq_true.mp hascii c hc), hsmall⟩

variable {name : List Char} (hname : name ∈ serviceNames)

include hname

theorem length_serviceName : (bytes name).length = 3 := by
  obtain ⟨hlength, hascii, -⟩ := serviceNames_spec name hname
  rw [length_bytes hascii, hlength]

/-- The bytes of the name of a service are found between characters only. -/
theorem exists_characters_of_serviceName {cs : List Char} {p q : List UInt8}
    (h : bytes cs = p ++ (bytes name ++ q)) :
    ∃ before after, cs = before ++ (name ++ after) ∧ bytes before = p ∧ bytes after = q := by
  obtain ⟨-, hascii, -⟩ := serviceNames_spec name hname
  have hbegins : ∀ b ∈ (bytes name ++ q).head?, beginsCharacter b = true := by
    intro b hb
    cases name with
    | nil => exact absurd (length_serviceName hname) (by decide)
    | cons c cs =>
      obtain ⟨b', rest, henc, -, hc⟩ := bytes_of_char c
      rw [bytes_cons, henc, List.cons_append, List.cons_append, List.head?_cons,
        Option.mem_some_iff] at hb
      have hlow := hascii c List.mem_cons_self
      rw [← hb, beginsCharacter_iff]
      omega
  obtain ⟨before, rest, rfl, hbefore, hrest⟩ := exists_characters h hbegins
  obtain ⟨after, rfl, hafter⟩ := exists_append_of_bytes hascii hrest
  exact ⟨before, after, rfl, hbefore, hafter⟩

/-- Bytes end in the name of a service where their characters do. -/
theorem bytes_suffix_iff {cs : List Char} : bytes name <:+ bytes cs ↔ name <:+ cs := by
  constructor
  · rintro ⟨p, hp⟩
    rw [← List.append_nil (bytes name)] at hp
    obtain ⟨before, after, rfl, -, hafter⟩ := exists_characters_of_serviceName hname hp.symm
    have hempty : after = [] := bytes_injective hafter
    exact ⟨before, by rw [hempty, List.append_nil]⟩
  · rintro ⟨before, rfl⟩
    exact ⟨bytes before, (bytes_append before name).symm⟩

/-- The last three bytes are a name in some case where the base in small letters ends in it. -/
theorem sameLetters_lastThree_iff {base : String} :
    SameLetters (lastThree (utf8 base)) (bytes name) ↔
      bytes name <:+ bytes (base.toList.map Char.toLower) := by
  obtain ⟨-, -, hsmall⟩ := serviceNames_spec name hname
  rw [SameLetters, lastThree, List.map_drop, ← length_map_lowerByte (utf8 base), utf8,
    map_lowerByte_bytes, map_lowerByte_bytes, hsmall, List.suffix_iff_eq_drop,
    length_serviceName hname, eq_comm]

end Names

section Endpoint

/-- A base that ends in no name of a service has none to find. -/
theorem findService_of_not_endsInService {base : String} (h : ¬ EndsInService base) :
    findService (bytes (base.toList.map Char.toLower)) = .ok none := by
  have hnone : ¬ (serviceNames.any fun name =>
      (bytes name).isSuffixOf (bytes (base.toList.map Char.toLower))) = true := by
    intro hany
    obtain ⟨name, hname, hsuffix⟩ := List.any_eq_true.mp hany
    exact h ⟨name, hname, (sameLetters_lastThree_iff hname).mpr
      (List.isSuffixOf_iff_suffix.mp hsuffix)⟩
  rw [findService, if_neg hnone]
  rfl

/-- In a base that ends in the name of a service, the name is looked for. -/
theorem findService_of_suffix {name cs : List Char} (hname : name ∈ serviceNames)
    (h : name <:+ cs) : findService (bytes cs) = .ok (findBytes (bytes name) (bytes cs)) := by
  have hsome : (serviceNames.any fun name => (bytes name).isSuffixOf (bytes cs)) = true :=
    List.any_eq_true.mpr
      ⟨name, hname, List.isSuffixOf_iff_suffix.mpr ((bytes_suffix_iff hname).mpr h)⟩
  obtain ⟨before, rfl⟩ := h
  have hlength : (bytes (before ++ name)).length = (bytes before).length + 3 := by
    rw [bytes_append, List.length_append, length_serviceName hname]
  have hstart : threeBefore (bytes (before ++ name)).length = .ok (bytes before).length := by
    rw [hlength, threeBefore, if_pos (by omega), Nat.add_sub_cancel]
  rw [findService, if_pos hsome, hstart]
  simp only [bind, Except.bind, splitBytes_characters, pure, Except.pure]

/-- The first occurrence of the name that the base ends in. -/
structure FirstName (base name : List Char) (p m q : List Char) : Prop where
  parts : base = p ++ (m ++ q)
  same : m.map Char.toLower = name
  first : ∀ p' q', bytes (base.map Char.toLower) = p' ++ (bytes name ++ q') →
    (bytes p).length ≤ p'.length

theorem exists_firstName {name base : List Char} (hname : name ∈ serviceNames)
    (h : name <:+ base.map Char.toLower) : ∃ p m q, FirstName base name p m q ∧
      findBytes (bytes name) (bytes (base.map Char.toLower)) = some (bytes p).length := by
  obtain ⟨before, hbefore⟩ := h
  obtain ⟨i, hi⟩ := exists_findBytes (bytes name) (bytes before) []
  rw [List.append_nil, ← bytes_append, hbefore] at hi
  obtain ⟨_, q, hfound, rfl, hfirst⟩ := findBytes_spec hi
  obtain ⟨p, q, hparts, rfl, -⟩ := exists_characters_of_serviceName hname hfound
  obtain ⟨p, rest, rfl, rfl, hrest⟩ := List.map_eq_append_iff.mp hparts
  obtain ⟨m, q, rfl, hm, -⟩ := List.map_eq_append_iff.mp hrest
  have hlength : (bytes (p.map Char.toLower)).length = (bytes p).length := by
    rw [← map_lowerByte_bytes, length_map_lowerByte]
  rw [hlength] at hi hfirst
  exact ⟨p, m, q, ⟨rfl, hm, hfirst⟩, hi⟩

variable {name : List Char} {base : String} {p m q : List Char}

/-- The characters in small letters are cut where the bytes are. -/
theorem FirstName.cutAt_eq {cs : List Char} (h : FirstName cs name p m q)
    (hname : name ∈ serviceNames) :
    cutAt name (cs.map Char.toLower) = some (p.map Char.toLower, q.map Char.toLower) := by
  obtain ⟨hlength, hascii, -⟩ := serviceNames_spec name hname
  have hne : name ≠ [] := List.ne_nil_of_length_pos (by omega)
  have hfirst : ¬ name <:+: p.map Char.toLower ++ name.dropLast := by
    rintro ⟨s, t, hinfix⟩
    -- an occurrence that ends before this one does begins before it
    obtain ⟨last, hlast⟩ := List.dropLast_prefix name
    have hsplit : p.map Char.toLower ++ (name ++ q.map Char.toLower) =
        s ++ (name ++ (t ++ last ++ q.map Char.toLower)) := calc
      _ = (p.map Char.toLower ++ name.dropLast) ++ last ++ q.map Char.toLower := by
        rw [List.append_assoc (p.map _), hlast, List.append_assoc]
      _ = s ++ (name ++ (t ++ last ++ q.map Char.toLower)) := by
        rw [← hinfix]
        simp only [List.append_assoc]
    have hearlier : bytes (cs.map Char.toLower) =
        bytes s ++ (bytes name ++ bytes (t ++ last ++ q.map Char.toLower)) := by
      rw [h.parts, List.map_append, List.map_append, h.same, hsplit, bytes_append, bytes_append]
    have hle := h.first _ _ hearlier
    have hbytes := congrArg (fun cs => (bytes cs).length) hinfix
    have hdrop : (bytes name.dropLast).length = 2 := by
      rw [length_bytes fun c hc => hascii c (List.dropLast_subset name hc), List.length_dropLast,
        hlength]
    have hlower : (bytes (p.map Char.toLower)).length = (bytes p).length := by
      rw [← map_lowerByte_bytes, length_map_lowerByte]
    simp only [bytes_append, List.length_append, length_serviceName hname] at hbytes
    omega
  rw [h.parts, List.map_append, List.map_append, h.same]
  exact cutAt_of_not_infix hne hfirst _

/-- The endpoint replaces the first occurrence of the name that the base ends in. -/
theorem serviceEndpoint_of_firstName (h : FirstName base.toList name p m q)
    (hname : name ∈ serviceNames) (hsuffix : name <:+ base.toList.map Char.toLower)
    (workspace service : String) :
    serviceEndpoint base workspace service =
      String.ofList p ++ workspace ++ "/" ++ service ++ String.ofList q := by
  obtain ⟨hlength, -, -⟩ := serviceNames_spec name hname
  have hend := List.suffix_iff_eq_drop.mp hsuffix
  rw [hlength] at hend
  have hbefore : base.toList.take p.length = p := by rw [h.parts, List.take_left]
  have hafter : base.toList.drop (p.length + 3) = q := by
    have hm : m.length = 3 := by rw [← hlength, ← h.same, List.length_map]
    rw [h.parts, ← hm, ← List.drop_drop, List.drop_left, List.drop_left]
  unfold serviceEndpoint
  dsimp only
  rw [← hend, if_pos hname, h.cutAt_eq hname]
  dsimp only
  rw [List.length_map, hbefore, hafter]
  simp only [toString, String.append_assoc]

/-- To any other base the workspace and the service are appended. -/
theorem serviceEndpoint_of_not_endsInService (h : ¬ EndsInService base)
    (workspace service : String) :
    serviceEndpoint base workspace service = base ++ "/" ++ workspace ++ "/" ++ service := by
  have hnone : (base.toList.map Char.toLower).drop ((base.toList.map Char.toLower).length - 3) ∉
      serviceNames := by
    intro hname
    refine h ⟨_, hname, (sameLetters_lastThree_iff hname).mpr ((bytes_suffix_iff hname).mpr ?_)⟩
    exact List.drop_suffix _ _
  unfold serviceEndpoint
  dsimp only
  rw [if_neg hnone]
  simp only [toString, String.append_assoc]

/-- The steps split the base in front of the first name and behind it. -/
theorem endpointSteps_of_firstName (h : FirstName base.toList name p m q)
    (hname : name ∈ serviceNames)
    (hfind : findService (bytes (base.toList.map Char.toLower)) = .ok (some (bytes p).length))
    (workspace service : String) :
    endpointSteps (utf8 base) (utf8 workspace) (utf8 service) =
      .ok (bytes p ++ utf8 workspace ++ utf8 "/" ++ utf8 service ++ bytes q) := by
  have hbase : utf8 base = bytes (p ++ (m ++ q)) := congrArg bytes h.parts
  have hbehind : (bytes p).length + 3 = (bytes (p ++ m)).length := by
    have hm : (bytes m).length = 3 := by
      rw [← length_serviceName hname, ← h.same, ← map_lowerByte_bytes, length_map_lowerByte]
    rw [bytes_append, List.length_append, hm]
  have hafter : splitBytes ((bytes p).length + 3) (bytes (p ++ (m ++ q))) =
      .ok (bytes (p ++ m), bytes q) := by
    rw [hbehind, ← List.append_assoc, splitBytes_characters]
  rw [endpointSteps, utf8, map_lowerByte_bytes, hfind]
  simp only [bind, Except.bind]
  rw [← utf8, hbase, splitBytes_characters]
  simp only [hafter]
  rfl

theorem endpointSteps_of_not_endsInService (h : ¬ EndsInService base) (workspace service : String) :
    endpointSteps (utf8 base) (utf8 workspace) (utf8 service) =
      .ok (utf8 base ++ utf8 "/" ++ utf8 workspace ++ utf8 "/" ++ utf8 service) := by
  rw [endpointSteps, utf8, map_lowerByte_bytes, findService_of_not_endsInService h]
  rfl

/-- What is the name in some case is the last three bytes in some case. -/
theorem sameLetters_lastThree {bs : List UInt8} (hname : name ∈ serviceNames)
    (h : SameLetters (lastThree (utf8 base)) (bytes name)) :
    SameLetters bs (lastThree (utf8 base)) ↔ bs.map lowerByte = bytes name := by
  obtain ⟨-, -, hsmall⟩ := serviceNames_spec name hname
  rw [SameLetters, h, map_lowerByte_bytes, hsmall]

/-- An endpoint is made for every base, workspace and service, without a slice that falls
outside the base or inside a character.  Where the last three bytes of the base are the name of
a service in some case, the first three bytes that are that name in some case give way to the
workspace and the service, and the rest of the base stays as it is.  To any other base they are
appended. -/
theorem serviceEndpoint_replaces_first (base workspace service : String) :
    endpointSteps (utf8 base) (utf8 workspace) (utf8 service) =
        .ok (utf8 (serviceEndpoint base workspace service)) ∧
      if EndsInService base then
        ∃ p m q : String, base = p ++ m ++ q ∧ (utf8 m).length = 3 ∧
          SameLetters (utf8 m) (lastThree (utf8 base)) ∧
          (∀ p' m' q' : List UInt8, utf8 base = p' ++ m' ++ q' →
            SameLetters m' (lastThree (utf8 base)) → (utf8 p).length ≤ p'.length) ∧
          serviceEndpoint base workspace service = p ++ workspace ++ "/" ++ service ++ q
      else serviceEndpoint base workspace service = base ++ "/" ++ workspace ++ "/" ++ service := by
  by_cases h : EndsInService base
  · rw [if_pos h]
    obtain ⟨name, hname, hlast⟩ := h
    have hsuffix := (bytes_suffix_iff hname).mp ((sameLetters_lastThree_iff hname).mp hlast)
    obtain ⟨p, m, q, hfirst, hfind⟩ := exists_firstName hname hsuffix
    have hendpoint := serviceEndpoint_of_firstName hfirst hname hsuffix workspace service
    have hsame : (bytes m).map lowerByte = bytes name := by
      rw [map_lowerByte_bytes, hfirst.same]
    have hstart := (findService_of_suffix hname hsuffix).trans (congrArg Except.ok hfind)
    refine ⟨?_, .ofList p, .ofList m, .ofList q, ?_, ?_, ?_, ?_, hendpoint⟩
    · rw [endpointSteps_of_firstName hfirst hname hstart, hendpoint]
      simp only [utf8_append, utf8_ofList]
    · rw [← String.ofList_append, ← String.ofList_append, List.append_assoc, ← hfirst.parts,
        String.ofList_toList]
    · rw [utf8_ofList, ← length_map_lowerByte (bytes m), hsame, length_serviceName hname]
    · rw [utf8_ofList]
      exact (sameLetters_lastThree hname hlast).mpr hsame
    · intro p' m' q' hparts hm'
      rw [utf8_ofList, ← length_map_lowerByte p']
      refine hfirst.first _ (q'.map lowerByte) ?_
      rw [← map_lowerByte_bytes, ← utf8, hparts, List.map_append, List.map_append,
        (sameLetters_lastThree hname hlast).mp hm', List.append_assoc]
  · rw [if_neg h, endpointSteps_of_not_endsInService h, serviceEndpoint_of_not_endsInService h]
    simp only [utf8_append, and_self]

/-- The name of the host gives way, and the one at the end stays. -/
example : serviceEndpoint "http://tjs.example.org/TJS" "ws" "wms" =
    "http://ws/wms.example.org/TJS" := by
  decide +kernel

end Endpoint

end TableJoin
