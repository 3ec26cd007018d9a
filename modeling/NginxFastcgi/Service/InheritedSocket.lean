import NginxFastcgi.Service.ListenServer

/-!
# The inherited socket and the port it listens on

`GetInheritedSocket` compares the reported port, as an `int16_t`, with the
configured one.  In the upper half of the range the two are never equal.
-/

namespace NginxFastcgi.Service.ListenServer

variable {reported : UInt16}

theorem toInt16_of_low (low : reported.toNat < 2 ^ 15) : toInt16 reported = reported.toNat := by
  unfold toInt16
  rw [Int.bmod_eq_of_le] <;> omega

theorem toInt16_of_high (high : ¬ reported.toNat < 2 ^ 15) :
    toInt16 reported = reported.toNat - 65536 := by
  have width := reported.toNat_lt
  have shifted : Int.bmod ((reported.toNat : Int) - (65536 : Nat)) 65536 =
      Int.bmod reported.toNat 65536 := Int.sub_bmod_right _ _
  rw [Int.bmod_eq_of_le (by omega) (by omega)] at shifted
  exact shifted.symm

/-- The two ports agree, and lie where the conversion keeps them. -/
theorem toInt16_eq_iff (reported configured : UInt16) :
    toInt16 reported = configured.toNat ↔
      reported = configured ∧ configured.toNat < 2 ^ 15 := by
  rw [← UInt16.toNat_inj]
  by_cases low : reported.toNat < 2 ^ 15
  · rw [toInt16_of_low low]
    omega
  · have width := reported.toNat_lt
    rw [toInt16_of_high low]
    omega

/-- The environment names the descriptor, and `getsockname` reports the
configured address for it. -/
def Matches (env : Option String) (getsockname : Getsockname) (ip : String) (port : UInt16)
    (fd : Int) : Prop :=
  ∃ text address, env = some text ∧ fd = atoi text ∧ getsockname fd = some address ∧
    inetNtoa address.sinAddr = ip ∧ address.sinPort = port

/-- A descriptor that matches is taken over, and nothing else is. -/
structure TakesOverMatching (env : Option String) (getsockname : Getsockname) (ip : String)
    (port : UInt16) : Prop where
  taken : ∀ fd, Matches env getsockname ip port fd →
    getInheritedSocket env getsockname ip port = fd
  refused : (∀ fd, ¬ Matches env getsockname ip port fd) →
    getInheritedSocket env getsockname ip port = -1

variable {env : Option String} {getsockname : Getsockname} {ip : String} {port : UInt16} {fd : Int}

/-- The server adopts a matching descriptor when its port is in the lower
half. -/
theorem adopts_iff :
    Adopts env getsockname ip port ↔
      ∃ fd, Matches env getsockname ip port fd ∧ port.toNat < 2 ^ 15 ∧ fd ≠ -1 := by
  constructor
  · rintro ⟨text, address, textEq, named, sameIp, samePort, some_open⟩
    obtain ⟨portEq, low⟩ := (toInt16_eq_iff _ _).mp samePort
    exact ⟨atoi text, ⟨text, address, textEq, rfl, named, sameIp, portEq⟩, low, some_open⟩
  · rintro ⟨fd, ⟨text, address, textEq, rfl, named, sameIp, portEq⟩, low, some_open⟩
    exact ⟨text, address, textEq, named, sameIp, (toInt16_eq_iff _ _).mpr ⟨portEq, low⟩, some_open⟩

theorem getInheritedSocket_of_matches (found : Matches env getsockname ip port fd) :
    getInheritedSocket env getsockname ip port = if port.toNat < 2 ^ 15 then fd else -1 := by
  rcases getInheritedSocket_cases env getsockname ip port with
    ⟨nothing, notAdopted⟩ | ⟨text, textEq, something, -, adopted⟩
  · rw [nothing]
    split
    · rename_i low
      by_contra different
      exact notAdopted (adopts_iff.mpr ⟨fd, found, low, Ne.symm different⟩)
    · rfl
  · obtain ⟨-, -, low, -⟩ := adopts_iff.mp adopted
    obtain ⟨name, -, nameEq, rfl, -⟩ := found
    cases textEq.symm.trans nameEq
    rw [something, if_pos low]

theorem getInheritedSocket_of_no_match (none_matches : ∀ fd, ¬ Matches env getsockname ip port fd) :
    getInheritedSocket env getsockname ip port = -1 := by
  rcases getInheritedSocket_cases env getsockname ip port with
    ⟨nothing, -⟩ | ⟨-, -, -, -, adopted⟩
  · exact nothing
  · obtain ⟨fd, found, -⟩ := adopts_iff.mp adopted
    exact absurd found (none_matches fd)

/-- A descriptor is taken over exactly when it matches, unless it matches on a
port in the upper half; the descriptor -1 stands for none anyway. -/
theorem takesOverMatching_iff (env : Option String) (getsockname : Getsockname) (ip : String)
    (port : UInt16) :
    TakesOverMatching env getsockname ip port ↔
      ∀ fd, Matches env getsockname ip port fd → fd ≠ -1 → port.toNat < 2 ^ 15 := by
  constructor
  · intro exact fd found some_open
    by_contra high
    have taken := exact.taken fd found
    rw [getInheritedSocket_of_matches found, if_neg high] at taken
    exact some_open taken.symm
  · intro low
    refine ⟨fun fd found => ?_, getInheritedSocket_of_no_match⟩
    rw [getInheritedSocket_of_matches found]
    split
    · rfl
    · rename_i high
      by_contra some_open
      exact high (low fd found (Ne.symm some_open))

/-- A socket that listens on port 40000 as configured is not taken over. -/
theorem not_takesOverMatching :
    ¬ TakesOverMatching (some "5") (fun _ => some ⟨⟨127, 0, 0, 1⟩, 40000⟩) "127.0.0.1" 40000 := by
  intro exact
  have taken := exact.taken 5 ⟨"5", ⟨⟨127, 0, 0, 1⟩, 40000⟩, rfl, by decide, rfl, by decide, rfl⟩
  exact absurd taken (by decide)

end NginxFastcgi.Service.ListenServer
