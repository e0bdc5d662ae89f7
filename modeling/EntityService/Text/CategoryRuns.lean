/-!
# Runs of the general categories

The general category of every code point, run by run, in lines of text.  A run is its length in
hexadecimal (left out when it is one) and the letter of its category; it may go on in the next line.

## Main definitions

* `categoryRuns` — the runs of all code points in ascending order
* `otherUppercase`, `otherLowercase` — cased characters that are not letters of that case
* `alphabeticMarks` — the marks that count as alphabetic
-/

namespace EntityService.Text

/-- The runs of the general categories.  The letters `A` to `Z` and `u` to `x` stand for the
categories in the order of `Category`'s constructors; `y` is a run of alternating uppercase and
lowercase letters. -/
def categoryRuns : List String :=
  ["20ZW3RT3RNORSRM2RaI2R3S2R1aANROULU1aBNSOS21ZWR4TVRUVEPSuVUVS2KUB2RUKEQ3KR17AS7A18BS8B38yB10y",
   "B2ey2AB4y2B2ABAB2AB3A2B4AB2AB3A3B2AB2AB4y2ABA2BAB2AB3ABAB2A2BEA3B4EACBACBACB10yB12yBACBAB3AB",
   "3ay6B2AB2A2BAB4AB8y44BE1bB12D4UcDeU5D7UDUD11U70F4yDUAB2xD3BRA4x2UAR3AxAx2AB11Ax9A23BA2B3A3B1",
   "8y4BABSAB2A2B33A30B22yV5F2H36y2ABcyB60yx26A2xD6R29BRM2x2VTx2dFMFR2FR2FRF8x1bE4x4E2Rbx6u3S2RT",
   "2R2VbFRu3R20EDaE15FaI4R2EF63ERE7FuV6F2D2FV4F2EaI3E2VEeRxuEF1eE1bF2x59EbFEexaI21E9F2DV3RD2xF2",
   "T16E4FD9FD3FD5F2xfRx19E3F2xRxbE5x18EU6Ex2u6x8F29ED18Fu20FG36EFGFE3G8F4GF2GE7FaE2F2RaIRDfEF2G",
   "x8E2x2E2x16Ex7ExE3x4E2xFE3G4F2x2G2x2GFE8xG4x2Ex3E2F2xaI2E2T6KVTERF2x2FGx6E4x2E2x16Ex7Ex2Ex2E",
   "x2E2xFx3G2F4x2F2x3F3xF7x4ExE7xaI2F3EFRax2FGx9Ex3Ex16Ex7Ex2Ex5E2xFE3G5Fx2FGx2GF2xEfx2E2F2xaIR",
   "T7xE6FxF2Gx8E2x2E2x16Ex7Ex2Ex5E2xFEGFG4F2x2G2x2GF7x2FG4x2Ex3E2F2xaIVE6KaxFEx6E3x3Ex4E3x2ExEx",
   "2E3x2E3x3E3xcE4x2GF2G3x3Gx3GF2xE6xGexaI3K6VTV5xF3GF8Ex3Ex17Ex10E2xFE3F4Gx3Fx4F7x2Fx3E2xE2x2E",
   "2F2xaI7xR7KVEF2GR8Ex3Ex17ExaEx5E2xFEGF5GxF2Gx2G2F7x2G6x2Ex2E2F2xaIx2EGcx2F2G9Ex3Ex29E2FE3G4F",
   "x3Gx3GFEV4x3EG7K3E2F2xaI9KV6ExF2Gx12E3x18Ex9ExE2x7E3xF4x3G3FxFx8G6xaI2x2GRcx30EF2E7F4xT6ED8F",
   "RaI2R25x2ExEx5Ex18ExExaEF2E9FE2x5ExDx7FxaI2x4E20xE3VfRVR3V2F6VaIaKVFVFVFNONO2G8Ex24E4xeFG5FR",
   "2F5EbFx24Fx8VF6Vx2V5R4V2R25x2bE2G4FG6FG2F2G2FEaI6R6E2G2F4E3FE3G2E7G3E4FdEF2G2F6GFEGaI3GF2V26",
   "AxA5xA2x2bBRD3B149Ex4E2x7ExEx4E2x29Ex4E2x21Ex4E2x7ExEx4E2xfEx39Ex4E2x43E2x3F9R14K3x10EaV6x56",
   "A2x6B2xM26cEVR11EW1aENO3x4bE3R3J8E7x12E3FG9x13E2FG2R9x12E2FcxdEx3Ex2Fcx34E2FG7F8GF2GbF3RD3RT",
   "EF2xaI6xaK6x6RM4R3FuFaI6x23ED35E7x5E2F22EFE5x46Eax1fEx3F4G2F3G4x2GF6G3F4xV3x2RaI1eE2x5Ebx2cE",
   "4x1aE6xaIK3x22V17E2F2GF2x2R35EGFG7FxFGF2G8F6GaF2xFaI6xaI6x7RD6R2xeFH10F31x4FG2fEFG5FGF5GF2G8",
   "E3xaI7RaV9F9V2Rx2FG1eEG4F2G2FG3F2EaI2cEFG2F3GFG3F2G8x4R24E8G8F2G2F3x5RaI3x3EaI1eE6D2R9B7x2bA",
   "2x3A8R8x3FRdFG7F4EF6EF2EG2FE5x2cB3fDdBD22B25D40F96y8B62y8B8A6B2x6A2x8B8A8B8A6B2x6A2x8BxAxAxA",
   "xA8B8AeB2x8B8C8B8C8B8C5Bx2B4ACUB3U3Bx2B4AC3U4B2x2B4Ax3U8B5A3U2x3Bx2B4AC2UxbW5u6M2RPQN2PQNP8R",
   "XY5uW9RPQ4R2L3RSNObRSRLaRW5uxauKD2x6K3SNODaK3SNOxdD3x21TfxdF4HF3HcFfx2VA4VA2VB3A2B3ABVA2VS5A",
   "6VAVAVAV4AVB4AB4EB2V2B2A5SA4BVS2VBV10K23JAB4JK2V4x5S5V2S4VS2VS2VS7VS1fV2S2VSVS1fV10cS8VNONO1",
   "4V2S7VNO51VS1eV19S28V6S45V19xbV15x3cK4eV16Kb7VS9VS36V8S6fVSf8VNONONONONONONO1eK2cV5SNO1fSNON",
   "ONONONO10S100V83SNONONONONONONONONONONO3fSNONO20SNO102S30V15S2V6S27V2x20Vx69V30A30BAB3A2B6y4",
   "ABA2BA6B2D3AB62yB6V4y3FAB5x4RK2R26BxB5xB2x38E7xDRexF17E9x7Ex7Ex7Ex7Ex7Ex7Ex7Ex7Ex20F2RPQPQ3R",
   "PQRPQ9RM2RMRPQ2RPQNONONONO5RDaR2M4RMRNdR2V3RNONONONOM22x1aVx59Vcxd6V1axcV4xW3RVDEJNONONONONO",
   "2VNONONONOMN2OV9J4F2GM5D2V3JDER2Vx56E2x2F2U2DEM5aER3DE5x2bEx5eEx2V4KaV20E24Vcx10E1fVxaK1eV8K",
   "VfK20VaK27VfK140V19c0E40V5215ED477E3x37V9x28E6D2R10cED3R10EaI2E14x2eyEF3HRaFRD1cy2D2F46EaJ2F",
   "6R8x17U9D2Uey2B3eyD8B4y2AB8yD2U4yE4y2B14y5AB5ABey4ABAB5xABxBxB4y18x3DABE2DB7EF3EF4EF17E2G2FG",
   "4VF3x6K2VTV6x34E4R8x2G32E10G2F8x2RaI6x12F6E3RER2EFaI1cE8F2R17EbF2GbxR1dE3x3FG2fEF2G4F2G2F3Gd",
   "RxDaI4x2R5EFD9EaI5Ex29E6F2G2F2G2F9x3EF8EFG2xaI2x4R10ED6E3VEGFG32EFE3F2E2F5E2FEFE18x2ED2RbEG2",
   "F2G2RE2DGFax6E2x6E2x6E9x7Ex7Ex2bBU4D9BD2U4x50B23E2GF2GF2GRGF2xaI6x2ba4Ecx17E4x31E4x800v1900w",
   "16eE2x6aE26x7Bcx5B5xEFaESdEx5ExEx2Ex2Ex6cE11U10x16bEON10V40E2x36E7xV20xcET3V10F7RNOR6x10FR2M",
   "2LNONONONONONONONO2RNO4R3L3Rx4RMNONONO3RSM3SxRT2R4x5Ex87E2xux3RT3RNORSRM2RaI2R3S2R1aANROULU1",
   "aBNSOSNORNO2RaED2dE2D1fE3x6E2x6E2x6E2x3E3x2TSUV2TxV4S2Vax3u2V2xcEx1aEx13Ex2ExfE2xeE22x7bE5x3",
   "R4x2dK3x9V35J4K11V2K3VxdV3xV2fx2dVF82x1dE3x31EfxF1bK4x20E4K9x14EJ8EJ5x26E5F5x1eExR24E4x8ER5J",
   "2ax28A28B4eE2xaI6x24A4x24B4x28E8x34EbxRbAxfAx7Ax2AxbBxfBx7Bx2B43x137E9x16Eax8E18x6Dx2aDx9D45",
   "x6E2xEx2cEx2E3xE2x17ExR8K17E2V7K1fE8x9K30x13Ex2E5x5K16E6K3xR1aE5xR40x38E4x2K2E10K2x2eKE3Fx2F",
   "5x4F4Ex3Ex1dE2x3F4xF9K7x9R7x1dE2KR1dE3K20x8EV1cE2F4x5K7R9x36E3x7R16E2x8K13E5x8K12E7x4Rcx7K50",
   "x49E37x33Adx33B7x6K24E4F8xaI126x1fKx2aEx2FM2x2E4bx3F1dEaKE8x16EbF4K5R16x12E4F4R26x15E7K14x17",
   "E9xGFG35EfF7R4x14KaIF2E2FE9x3FG2dE3G4F2G2F2Ru4RFaxu2x19E7xaI6x3F24E5FG8FxaI4RE2GE8x23EF2RE9x",
   "2FG30E3G9F2G4E4R4FRGFaIERE3Rx14Kbx12Ex19E3G3F2GFG2F6RF2EF3ex7ExEx4ExfExaER6x2fEF3G8F5xaI6x2F",
   "2Gx8E2x2E2x16Ex7Ex2Ex5Ex2FE2GF4G2x2G2x3G2xE6xG5x5E2G2x7F3x5F8bx35E3G8F2G3FGF4E5RaI2RxRF3E1ex",
   "30E3G6FGF4G2FG2F2ERE8xaIa6x2fE3G4F2x4G2FG2F17R4E2F22x30E3G8F2GFG2F3REbxaI6xdR13x2bEFGF2G6FGF",
   "ER6xaI36x1bE2x3F2G4FG5F4xaI2K3RV7Eb9x2cE3G9FG2FR64x20A20BaI9Kcx8E2xE2x8Ex2Ex18E6Gx2G2x2FGFEG",
   "EGF3R9xaI46x8E2x27E3G4F2x2F4GFEREG1bxEaF28E6FGE4F8RF8xE6F2G3F2eEdFG2F3RE5Rdx49E7xaRf6x9Ex25E",
   "G7Fx6FGFE5RaxaI13K3x2R1eE2x16FxG7FG2FG2F49x7Ex2Ex26E6F3xFx2Fx7FEF8xaI6x6Ex2Ex20E5Gx2Fx2GFGFE",
   "7xaI136x13E2F2G2R7x2FEGdEx22E2G5F3x2GFGFdRaI56xEfx15K8V4T11VdxR39aE66x6fJx5Rbxc4Ea4cx61E2Rdx",
   "430E10uF6EfFfaax247E21b9x239E7x1fExaI4x2R4fExaI6x1eE2x5FRax30E7F5R4V4DRVaxaIx7Kx15E5x13E2b0x",
   "20A20B17K4R65x4bE4xFE37G7x4FdD40x2DRDFbx2Gex17f8E8x4d6E2ax9E22e7x4Dx7Dx2Dx123EfxE1dx3E2xEex4",
   "E8x18cE904x6bE5xdE3x9E7xaE2xV2FR4u125cx2eF2x17F9x74V3cxf6Vax27V2x3cV2G3F3V6G8u8F2V7F1eV4F3dV",
   "15x42V3FV7ax14Kcx14Kcx57V9x19K87x1aA1aB1aA7Bx12B1aA1aBAx2A2xA2x2A2x4Ax8A4BxBx7BxbB1aA1aB2Ax4",
   "A2x8Ax7Ax1aB2Ax4Ax5AxA3x7Ax1aB1aA1aB1aA1aB1aA1aB1aA1aB1aA1aB1aA1cB2x19AS19BS6B19AS19BS6B19AS",
   "19BS6B19AS19BS6B19AS19BS6BAB2x32I200V37F4V32F8VFeVF2V5Rfx5FxfF450xaBE14B6x6Bd5x7Fx11F2x7Fx2F",
   "x5F5x3eD21xF70x2dE3x7F7D2xaI4xEV140x1eEF11x2cE4FaI5xT1d0x1bED4FaI2e6x7Ex4Ex2ExfExc5E2x9K7F29",
   "x22A22B7FD4xaI4x2R311x3bKV3KT4K4cx2dKVfKc2x4Ex1bEx2ExE2xExaEx4ExExE6xE4xExExEx3Ex2ExE2xExExE",
   "xExEx2ExE2x4Ex7Ex4Ex4ExExaEx11E5x3Ex5Ex11E34x2S10ex2cV4x64VcxfV2xfVxfVx25VaxdKa1V38x1dVdx2cV",
   "4x9V7x2Vex6V9axfbV5U2d8V4x11V3xdV3x77V4x5fV6xcV4xVfxcV4x38V8xaV6x28V8x1eV2x2V4ex154VcxeV2xdV",
   "3x9V7x2eVx7V8xeV4x9V7x9V7x93Vx37V25xaI406xa6e0E20x103aE6xdeE2x1682Eex1d31Ec1fx21eE5e2x134bE5",
   "x1060Eadc51xu1ex60u80xf0Ffe10xfffew2xfffew2x"]

/-- Uppercase characters that are not uppercase letters. -/
def otherUppercase : List (Nat × Nat) := [
  (0x2160, 0x216F), (0x24B6, 0x24CF), (0x1F130, 0x1F149), (0x1F150, 0x1F169), (0x1F170, 0x1F189)]

/-- Lowercase characters that are not lowercase letters. -/
def otherLowercase : List (Nat × Nat) := [
  (0xAA, 0xAA), (0xBA, 0xBA), (0x2B0, 0x2B8), (0x2C0, 0x2C1), (0x2E0, 0x2E4), (0x345, 0x345),
  (0x37A, 0x37A), (0x10FC, 0x10FC), (0x1D2C, 0x1D6A), (0x1D78, 0x1D78), (0x1D9B, 0x1DBF),
  (0x2071, 0x2071), (0x207F, 0x207F), (0x2090, 0x209C), (0x2170, 0x217F), (0x24D0, 0x24E9),
  (0x2C7C, 0x2C7D), (0xA69C, 0xA69D), (0xA770, 0xA770), (0xA7F2, 0xA7F4), (0xA7F8, 0xA7F9),
  (0xAB5C, 0xAB5F), (0xAB69, 0xAB69), (0x10780, 0x10780), (0x10783, 0x10785),
  (0x10787, 0x107B0), (0x107B2, 0x107BA), (0x1E030, 0x1E06D)]

/-- Marks that count as alphabetic. -/
def alphabeticMarks : List (Nat × Nat) := [
  (0x345, 0x345), (0x5B0, 0x5BD), (0x5BF, 0x5BF), (0x5C1, 0x5C2), (0x5C4, 0x5C5),
  (0x5C7, 0x5C7), (0x610, 0x61A), (0x64B, 0x657), (0x659, 0x65F), (0x670, 0x670),
  (0x6D6, 0x6DC), (0x6E1, 0x6E4), (0x6E7, 0x6E8), (0x6ED, 0x6ED), (0x711, 0x711),
  (0x730, 0x73F), (0x7A6, 0x7B0), (0x816, 0x817), (0x81B, 0x823), (0x825, 0x827),
  (0x829, 0x82C), (0x8D4, 0x8DF), (0x8E3, 0x8E9), (0x8F0, 0x903), (0x93A, 0x93B),
  (0x93E, 0x94C), (0x94E, 0x94F), (0x955, 0x957), (0x962, 0x963), (0x981, 0x983),
  (0x9BE, 0x9C4), (0x9C7, 0x9C8), (0x9CB, 0x9CC), (0x9D7, 0x9D7), (0x9E2, 0x9E3),
  (0xA01, 0xA03), (0xA3E, 0xA42), (0xA47, 0xA48), (0xA4B, 0xA4C), (0xA51, 0xA51),
  (0xA70, 0xA71), (0xA75, 0xA75), (0xA81, 0xA83), (0xABE, 0xAC5), (0xAC7, 0xAC9),
  (0xACB, 0xACC), (0xAE2, 0xAE3), (0xAFA, 0xAFC), (0xB01, 0xB03), (0xB3E, 0xB44),
  (0xB47, 0xB48), (0xB4B, 0xB4C), (0xB56, 0xB57), (0xB62, 0xB63), (0xB82, 0xB82),
  (0xBBE, 0xBC2), (0xBC6, 0xBC8), (0xBCA, 0xBCC), (0xBD7, 0xBD7), (0xC00, 0xC04),
  (0xC3E, 0xC44), (0xC46, 0xC48), (0xC4A, 0xC4C), (0xC55, 0xC56), (0xC62, 0xC63),
  (0xC81, 0xC83), (0xCBE, 0xCC4), (0xCC6, 0xCC8), (0xCCA, 0xCCC), (0xCD5, 0xCD6),
  (0xCE2, 0xCE3), (0xCF3, 0xCF3), (0xD00, 0xD03), (0xD3E, 0xD44), (0xD46, 0xD48),
  (0xD4A, 0xD4C), (0xD57, 0xD57), (0xD62, 0xD63), (0xD81, 0xD83), (0xDCF, 0xDD4),
  (0xDD6, 0xDD6), (0xDD8, 0xDDF), (0xDF2, 0xDF3), (0xE31, 0xE31), (0xE34, 0xE3A),
  (0xE4D, 0xE4D), (0xEB1, 0xEB1), (0xEB4, 0xEB9), (0xEBB, 0xEBC), (0xECD, 0xECD),
  (0xF71, 0xF83), (0xF8D, 0xF97), (0xF99, 0xFBC), (0x102B, 0x1036), (0x1038, 0x1038),
  (0x103B, 0x103E), (0x1056, 0x1059), (0x105E, 0x1060), (0x1062, 0x1064), (0x1067, 0x106D),
  (0x1071, 0x1074), (0x1082, 0x108D), (0x108F, 0x108F), (0x109A, 0x109D), (0x1712, 0x1713),
  (0x1732, 0x1733), (0x1752, 0x1753), (0x1772, 0x1773), (0x17B6, 0x17C8), (0x1885, 0x1886),
  (0x18A9, 0x18A9), (0x1920, 0x192B), (0x1930, 0x1938), (0x1A17, 0x1A1B), (0x1A55, 0x1A5E),
  (0x1A61, 0x1A74), (0x1ABF, 0x1AC0), (0x1ACC, 0x1ACE), (0x1B00, 0x1B04), (0x1B35, 0x1B43),
  (0x1B80, 0x1B82), (0x1BA1, 0x1BA9), (0x1BAC, 0x1BAD), (0x1BE7, 0x1BF1), (0x1C24, 0x1C36),
  (0x1DE7, 0x1DF4), (0x2DE0, 0x2DFF), (0xA674, 0xA67B), (0xA69E, 0xA69F), (0xA802, 0xA802),
  (0xA80B, 0xA80B), (0xA823, 0xA827), (0xA880, 0xA881), (0xA8B4, 0xA8C3), (0xA8C5, 0xA8C5),
  (0xA8FF, 0xA8FF), (0xA926, 0xA92A), (0xA947, 0xA952), (0xA980, 0xA983), (0xA9B4, 0xA9BF),
  (0xA9E5, 0xA9E5), (0xAA29, 0xAA36), (0xAA43, 0xAA43), (0xAA4C, 0xAA4D), (0xAA7B, 0xAA7D),
  (0xAAB0, 0xAAB0), (0xAAB2, 0xAAB4), (0xAAB7, 0xAAB8), (0xAABE, 0xAABE), (0xAAEB, 0xAAEF),
  (0xAAF5, 0xAAF5), (0xABE3, 0xABEA), (0xFB1E, 0xFB1E), (0x10376, 0x1037A), (0x10A01, 0x10A03),
  (0x10A05, 0x10A06), (0x10A0C, 0x10A0F), (0x10D24, 0x10D27), (0x10EAB, 0x10EAC),
  (0x11000, 0x11002), (0x11038, 0x11045), (0x11073, 0x11074), (0x11080, 0x11082),
  (0x110B0, 0x110B8), (0x110C2, 0x110C2), (0x11100, 0x11102), (0x11127, 0x11132),
  (0x11145, 0x11146), (0x11180, 0x11182), (0x111B3, 0x111BF), (0x111CE, 0x111CF),
  (0x1122C, 0x11234), (0x11237, 0x11237), (0x1123E, 0x1123E), (0x11241, 0x11241),
  (0x112DF, 0x112E8), (0x11300, 0x11303), (0x1133E, 0x11344), (0x11347, 0x11348),
  (0x1134B, 0x1134C), (0x11357, 0x11357), (0x11362, 0x11363), (0x11435, 0x11441),
  (0x11443, 0x11445), (0x114B0, 0x114C1), (0x115AF, 0x115B5), (0x115B8, 0x115BE),
  (0x115DC, 0x115DD), (0x11630, 0x1163E), (0x11640, 0x11640), (0x116AB, 0x116B5),
  (0x1171D, 0x1172A), (0x1182C, 0x11838), (0x11930, 0x11935), (0x11937, 0x11938),
  (0x1193B, 0x1193C), (0x11940, 0x11940), (0x11942, 0x11942), (0x119D1, 0x119D7),
  (0x119DA, 0x119DF), (0x119E4, 0x119E4), (0x11A01, 0x11A0A), (0x11A35, 0x11A39),
  (0x11A3B, 0x11A3E), (0x11A51, 0x11A5B), (0x11A8A, 0x11A97), (0x11C2F, 0x11C36),
  (0x11C38, 0x11C3E), (0x11C92, 0x11CA7), (0x11CA9, 0x11CB6), (0x11D31, 0x11D36),
  (0x11D3A, 0x11D3A), (0x11D3C, 0x11D3D), (0x11D3F, 0x11D41), (0x11D43, 0x11D43),
  (0x11D47, 0x11D47), (0x11D8A, 0x11D8E), (0x11D90, 0x11D91), (0x11D93, 0x11D96),
  (0x11EF3, 0x11EF6), (0x11F00, 0x11F01), (0x11F03, 0x11F03), (0x11F34, 0x11F3A),
  (0x11F3E, 0x11F40), (0x16F4F, 0x16F4F), (0x16F51, 0x16F87), (0x16F8F, 0x16F92),
  (0x16FF0, 0x16FF1), (0x1BC9E, 0x1BC9E), (0x1E000, 0x1E006), (0x1E008, 0x1E018),
  (0x1E01B, 0x1E021), (0x1E023, 0x1E024), (0x1E026, 0x1E02A), (0x1E08F, 0x1E08F),
  (0x1E947, 0x1E947)]

end EntityService.Text
