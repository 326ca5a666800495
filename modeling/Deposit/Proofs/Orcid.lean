import Deposit.Proofs.Identity
import Deposit.Proofs.RecordParties
import Deposit.Proofs.Url.Reading

/-!
ORCID iDs on their way from a token into a record.

A claimed id with `orcid.org` in it is given as an address with `https` if it is the address of a
place on the web, and as it is if not. `orcid.org` stays in it, and with it the directory that the
record names, unless a host had to be brought into ASCII or a double dot led out of the place
(`userId_of_orcid`).
-/

namespace Deposit.Identity

open DescriptiveRecord (document partyIds)

theorem orcid_isWord : Url.IsWord "orcid.org".toList where
  plain := by
    have all : "orcid.org".toList.all (Url.wordCharacters.contains ·) = true := by decide
    exact fun c mem => List.contains_iff_mem.mp (List.all_eq_true.mp all c mem)
  first := ⟨'o', "rcid.org".toList, rfl, by decide⟩
  long := by decide

/-- An id that counts as an ORCID iD: the records that are written for it name the directory of
ORCID, for the creator and for the contact. -/
structure CountsAsOrcid (id : String) : Prop where
  orcid : isOrcid id = true
  directory : directory id = "https://orcid.org"
  named : ∀ {tale : Tale} {user : User} {items : List ObjectEntry} {pid : Pid} {sizes : FileSizes}
    {licenseId : String} {xml : Bytes},
    document tale user items pid sizes licenseId id = .ok xml →
      partyIds "creator" xml = [("https://orcid.org", id)] ∧
        partyIds "contact" xml = [("https://orcid.org", id)]

theorem countsAsOrcid_iff {id : String} :
    CountsAsOrcid id ↔ "orcid.org".toList <:+: id.toList := by
  rw [← isOrcid_iff]
  refine ⟨CountsAsOrcid.orcid, fun orcid => ?_⟩
  have issued : directory id = "https://orcid.org" := by rw [directory, if_pos orcid]
  refine ⟨orcid, issued, fun made => ?_⟩
  rw [← issued]
  exact ⟨DescriptiveRecord.partyIds_document made (.inl rfl),
    DescriptiveRecord.partyIds_document made (.inr rfl)⟩

/-- A token names what is read from its claims. -/
theorem names_of_claimed {token : String} {id : String}
    (claimed : (claims token).toOption.bind claimedId? = some id) : Names token.toList id := by
  obtain ⟨value, read, named⟩ := Option.bind_eq_some_iff.mp claimed
  cases held : claims token with
  | error fault =>
      rw [held] at read
      cases read
  | ok value' =>
      rw [held] at read
      cases read
      exact names_iff.mpr ⟨value, held, named⟩

/-- An id with `orcid.org` in it that is no place on the web is given as it is and counts as an
ORCID iD. One that is a place on the web is given as its address by `https`, and counts as an ORCID
iD unless `orcid.org` stands in no part of the address, for the address has lost it. -/
theorem userId_of_orcid {token : String} {id : String} (names : Names token.toList id)
    (orcid : "orcid.org".toList <:+: id.toList) :
    ∃ r, userId token = .ok r ∧
      ((Url.parse? id).bind Url.toHttps? = none → r = id ∧ CountsAsOrcid r) ∧
      ∀ address url, Url.parse? id = some address → address.toHttps? = some url →
        r = url.text ∧ "https://".toList <+: r.toList ∧
          (CountsAsOrcid r ∨ ¬ Url.StandsIn "orcid.org".toList address ∧
            Url.Loses "orcid.org".toList (Url.cleaned id) address) := by
  have read := userId_eq_ok_iff.mpr ⟨id, names, rfl⟩
  rw [given, if_pos (isOrcid_iff.mpr orcid)] at read
  refine ⟨secured id, read, fun nowhere => ?_, fun address url parsed placed => ?_⟩
  · have same : secured id = id := by rw [secured, nowhere]
    rw [same]
    exact ⟨rfl, countsAsOrcid_iff.mpr orcid⟩
  · have same : secured id = url.text := by rw [secured, parsed, Option.bind_some, placed]
    obtain ⟨web, there, -⟩ := Url.toHttps?_eq_some placed
    rw [same]
    refine ⟨rfl, Url.text_of_toHttps? placed, ?_⟩
    by_cases stands : Url.StandsIn "orcid.org".toList address
    · exact .inl (countsAsOrcid_iff.mpr (Url.infix_text_of_toHttps? placed stands))
    · have lost := (Url.infix_parse? orcid_isWord parsed web there orcid).resolve_left stands
      exact .inr ⟨stands, lost⟩

/-- The address of an ORCID iD is given with `https`, and counts as one. -/
theorem userId_of_orcid_address :
    Names "e30.eyJ1c2VySWQiOiJodHRwOi8vb3JjaWQub3JnLzAwMDAtMDAwMi0xNzU2LTIxMjgifQ.s".toList
        "http://orcid.org/0000-0002-1756-2128" ∧
      ∃ r, userId "e30.eyJ1c2VySWQiOiJodHRwOi8vb3JjaWQub3JnLzAwMDAtMDAwMi0xNzU2LTIxMjgifQ.s" =
        .ok r ∧ r = "https://orcid.org/0000-0002-1756-2128" ∧ "https://".toList <+: r.toList ∧
          CountsAsOrcid r := by
  have names := names_of_claimed (by decide +kernel :
    (claims
      "e30.eyJ1c2VySWQiOiJodHRwOi8vb3JjaWQub3JnLzAwMDAtMDAwMi0xNzU2LTIxMjgifQ.s").toOption.bind
        claimedId? = some "http://orcid.org/0000-0002-1756-2128")
  refine ⟨names, ?_⟩
  obtain ⟨r, read, -, placed⟩ := userId_of_orcid names (isOrcid_iff.mp (by decide +kernel))
  have parsed : Url.parse? "http://orcid.org/0000-0002-1756-2128" = some ⟨"http", "", "",
      some (.domain "orcid.org"), none, .segments ["0000-0002-1756-2128"], none, none⟩ := by
    decide +kernel
  obtain ⟨same, https, counts⟩ := placed _ _ parsed rfl
  have stands := isOrcid_iff.mp (by decide +kernel : isOrcid "orcid.org" = true)
  have counts := counts.resolve_right fun lost => lost.1 (.host rfl stands)
  exact ⟨r, read, same.trans (by decide +kernel), https, counts⟩

/-- An iD without a scheme is given as it is. Behind a double dot, and with a label that is not
ASCII, an address with `orcid.org` in it is given as the address of another place. -/
theorem orcid_unsecured_or_lost :
    (Names "e30.eyJ1c2VySWQiOiJvcmNpZC5vcmcvMDAwMC0wMDAyLTE3NTYtMjEyOCJ9.s".toList
        "orcid.org/0000-0002-1756-2128" ∧
      isOrcid "orcid.org/0000-0002-1756-2128" = true ∧
      userId "e30.eyJ1c2VySWQiOiJvcmNpZC5vcmcvMDAwMC0wMDAyLTE3NTYtMjEyOCJ9.s" =
        .ok "orcid.org/0000-0002-1756-2128" ∧
      ¬ "https://".toList <+: "orcid.org/0000-0002-1756-2128".toList) ∧
    (Names "e30.eyJ1c2VySWQiOiJodHRwOi8vYS9vcmNpZC5vcmcvLi4ifQ.s".toList "http://a/orcid.org/.." ∧
      isOrcid "http://a/orcid.org/.." = true ∧
      userId "e30.eyJ1c2VySWQiOiJodHRwOi8vYS9vcmNpZC5vcmcvLi4ifQ.s" = .ok "https://a/" ∧
      isOrcid "https://a/" = false ∧ directory "https://a/" = "https://cilogon.org") ∧
    (Names "e30.eyJ1c2VySWQiOiJodHRwOi8vb3JjaWQub3Jnw6kvMSJ9.s".toList "http://orcid.orgé/1" ∧
      isOrcid "http://orcid.orgé/1" = true ∧
      userId "e30.eyJ1c2VySWQiOiJodHRwOi8vb3JjaWQub3Jnw6kvMSJ9.s" =
        .ok "https://orcid.xn--org-dma/1" ∧
      isOrcid "https://orcid.xn--org-dma/1" = false ∧
      directory "https://orcid.xn--org-dma/1" = "https://cilogon.org") := by
  have bare := names_of_claimed (by decide +kernel :
    (claims "e30.eyJ1c2VySWQiOiJvcmNpZC5vcmcvMDAwMC0wMDAyLTE3NTYtMjEyOCJ9.s").toOption.bind
      claimedId? = some "orcid.org/0000-0002-1756-2128")
  have climbing := names_of_claimed (by decide +kernel :
    (claims "e30.eyJ1c2VySWQiOiJodHRwOi8vYS9vcmNpZC5vcmcvLi4ifQ.s").toOption.bind claimedId? =
      some "http://a/orcid.org/..")
  have marked := names_of_claimed (by decide +kernel :
    (claims "e30.eyJ1c2VySWQiOiJodHRwOi8vb3JjaWQub3Jnw6kvMSJ9.s").toOption.bind claimedId? =
      some "http://orcid.orgé/1")
  refine ⟨⟨bare, by decide +kernel, ?_, by decide⟩,
    ⟨climbing, by decide +kernel, ?_, by decide +kernel, by decide +kernel⟩,
    ⟨marked, by decide +kernel, ?_, by decide +kernel, by decide +kernel⟩⟩
  · exact userId_eq_ok_iff.mpr ⟨_, bare, by decide +kernel⟩
  · exact userId_eq_ok_iff.mpr ⟨_, climbing, by decide +kernel⟩
  · exact userId_eq_ok_iff.mpr ⟨_, marked, by decide +kernel⟩

end Deposit.Identity
