import PvrBackend.Calendar.Date
import PvrBackend.Calendar.Zone

/-!
# The clocks of Prague

The service states all times as Prague shows them. Until 1891 clocks follow the
local mean time; summer time comes and goes with the wars and their aftermath,
in one winter clocks follow universal time, and from 1979 on summer time returns
every year. The table ends with the winter that begins in 2099.
-/

namespace PvrBackend.Calendar.Prague

def localMean : Offset := ⟨3464, "LMT"⟩

/-- The mean time of Prague as a standard. -/
def pragueMean : Offset := ⟨3464, "PMT"⟩

def winter : Offset := ⟨3600, "CET"⟩

def summer : Offset := ⟨7200, "CEST"⟩

/-- Universal time, kept in the winter of 1946. -/
def universal : Offset := ⟨0, "GMT"⟩

/-- A change at a minute of universal time. -/
def changeAt (year : Int) (month day hour : Nat) (offset : Offset) : Change :=
  ⟨Date.number ⟨year, month, day⟩ * 86400 + hour * 3600, offset⟩

/-- Changes before the yearly rule. -/
def earlyChanges : List Change := [
  ⟨-3786829064, pragueMean⟩,
  ⟨-2469401864, winter⟩,
  changeAt 1916 4 30 22 summer, changeAt 1916 9 30 23 winter,
  changeAt 1917 4 16 1 summer, changeAt 1917 9 17 1 winter,
  changeAt 1918 4 15 1 summer, changeAt 1918 9 16 1 winter,
  changeAt 1940 4 1 1 summer, changeAt 1942 11 2 1 winter,
  changeAt 1943 3 29 1 summer, changeAt 1943 10 4 1 winter,
  changeAt 1944 4 3 1 summer, changeAt 1944 10 2 1 winter,
  changeAt 1945 4 2 1 summer, changeAt 1945 10 1 1 winter,
  changeAt 1946 5 6 1 summer, changeAt 1946 10 6 1 winter,
  changeAt 1946 12 1 2 universal, changeAt 1947 2 23 2 winter,
  changeAt 1947 4 20 1 summer, changeAt 1947 10 5 1 winter,
  changeAt 1948 4 18 1 summer, changeAt 1948 10 3 1 winter,
  changeAt 1949 4 9 1 summer, changeAt 1949 10 2 1 winter]

/-- Day on which summer time starts under the yearly rule. -/
def summerStart (year : Int) : Int :=
  if year < 1981 then Date.firstSunday year 4 else Date.lastSunday year 3

/-- Day on which summer time ends under the yearly rule. -/
def summerEnd (year : Int) : Int :=
  if year < 1996 then Date.lastSunday year 9 else Date.lastSunday year 10

/-- The two changes of a year, at one o'clock universal time. -/
def yearChanges (year : Int) : List Change :=
  [⟨summerStart year * 86400 + 3600, summer⟩, ⟨summerEnd year * 86400 + 3600, winter⟩]

def ruleYears : List Int := (List.range 121).map (fun (i : Nat) => 1979 + (i : Int))

def zone : Zone := ⟨localMean, earlyChanges ++ ruleYears.flatMap yearChanges⟩

end PvrBackend.Calendar.Prague
