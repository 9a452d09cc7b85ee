/-
  DocSchema/Character/Category.lean
  =================================
  **The general category of every code point.**

  A category is a code of two letters: the first is its group (letters, marks, numbers,
  punctuation, symbols, separators and others), the second its place in the group.  Code points
  that stand for no character have the code `Cn`.
-/
import DocSchema.Character.Table

namespace DocSchema.Character

def categoryRuns : List Run := readRuns 2 [
    "CcwZsPo3ScPo3PsPePoSmPoPdPo2NdaPo2Sm3Po2LuqPsPoPeSkPcSkLlqPsSmPeSmCcxZsPoSc4SoPoSkSoLoPiSmCf",
    "SoSkSoSmNo2SkLlPo2SkNoLoPfNo3PoLunSmLu7LloSmLl8LuLlLuLlLuLlLuLlLuLlLuLlLuLlLuLlLuLlLuLlLuLl",
    "LuLlLuLlLuLlLuLlLuLlLuLlLuLlLuLlLuLlLuLlLuLlLuLlLuLlLuLlLuLlLuLlLuLl2LuLlLuLlLuLlLuLlLuLlLu",
    "LlLuLlLuLl2LuLlLuLlLuLlLuLlLuLlLuLlLuLlLuLlLuLlLuLlLuLlLuLlLuLlLuLlLuLlLuLlLuLlLuLlLuLlLuLl",
    "LuLlLuLlLuLlLu2LlLuLlLuLl3Lu2LlLuLlLu2LlLu3Ll2Lu4LlLu2LlLu3Ll3Lu2LlLu2LlLuLlLuLlLu2LlLuLl2Lu",
    "LlLu2LlLu3LlLuLlLu2Ll2LoLuLl3Lo4LuLtLlLuLtLlLuLtLlLuLlLuLlLuLlLuLlLuLlLuLlLuLlLuLl2LuLlLuLl",
    "LuLlLuLlLuLlLuLlLuLlLuLlLuLl2LuLtLlLuLlLu3LlLuLlLuLlLuLlLuLlLuLlLuLlLuLlLuLlLuLlLuLlLuLlLuLl",
    "LuLlLuLlLuLlLuLlLuLlLuLlLuLlLuLlLuLlLuLlLuLlLuLlLuLlLuLlLuLlLuLlLuLl7Lu2LlLu2Ll2LuLlLu4LlLu",
    "LlLuLlLuLlLuLl1xLoLlrLmiSk4LmcSkeLm5Sk7LmSkLmSkhMn34LuLlLuLlLmSkLuLlCn2LmLl3PoLuCn4Sk2LuPo",
    "Lu3CnLuCnLu2LlLuhCnLu9LlzLuLl2Lu3Ll3LuLlLuLlLuLlLuLlLuLlLuLlLuLlLuLlLuLlLuLlLuLlLuLl5LuLlSm",
    "LuLlLu2Ll2Lu1fLl1cLuLlLuLlLuLlLuLlLuLlLuLlLuLlLuLlLuLlLuLlLuLlLuLlLuLlLuLlLuLlLuLlLuLlSoMn5",
    "Me2LuLlLuLlLuLlLuLlLuLlLuLlLuLlLuLlLuLlLuLlLuLlLuLlLuLlLuLlLuLlLuLlLuLlLuLlLuLlLuLlLuLlLuLl",
    "LuLlLuLlLuLlLuLlLuLlLu2LlLuLlLuLlLuLlLuLlLuLlLuLl2LuLlLuLlLuLlLuLlLuLlLuLlLuLlLuLlLuLlLuLlLu",
    "LlLuLlLuLlLuLlLuLlLuLlLuLlLuLlLuLlLuLlLuLlLuLlLuLlLuLlLuLlLuLlLuLlLuLlLuLlLuLlLuLlLuLlLuLlLu",
    "LlLuLlLuLlLuLlLuLlLuLlLuLlLuLlLuLlLuLlLuLlLuLlLuLlLuLlLuLlCnLu12Cn2LmPo6Ll15PoPdCn2So2ScCn",
    "Mn19PdMnPoMn2PoMn2PoMnCn8LorCn4Lo4Po2CnbCf6Sm3Po2ScPo2So2MnbPoCfPo3LowLmLoaMnlNdaPo4Lo2Mn",
    "Lo2rPoLoMn7CfSoMn6Lm2Mn2SoMn4Lo2NdaLo3So2LoPoeCnCfLoMnLouMnrCn2Lo2hMnbLoCneNdaLoxMn9Lm2SoPo3",
    "LmCn2MnSc2LomMn4LmMn9LmMn3LmMn5Cn2PofCnLopMn3Cn2PoCnLobCn5LooSkLo6CnCf2Cn5Mn9Lo15LmMnoCfMnw",
    "McLo1iMnMcMnLoMc3Mn8Mc4MnMc2LoMn7LoaMn2Po2NdaPoLmLofMnMc2CnLo8Cn2Lo2Cn2LomCnLo7CnLoCn3Lo4Cn2",
    "MnLoMc3Mn4Cn2Mc2Cn2Mc2MnLoCn8McCn4Lo2CnLo3Mn2Cn2NdaLo2Sc2No6SoScLoPoMnCn2Mn2McCnLo6Cn4Lo2Cn2",
    "LomCnLo7CnLo2CnLo2CnLo2Cn2MnCnMc3Mn2Cn4Mn2Cn2Mn3Cn3MnCn7Lo4CnLoCn7NdaMn2Lo3MnPoCnaMn2McCnLo9",
    "CnLo3CnLomCnLo7CnLo2CnLo5Cn2MnLoMc3Mn5CnMn2McCnMc2MnCn2LoCnfLo2Mn2Cn2NdaPoScCn7LoMn6CnMnMc2",
    "CnLo8Cn2Lo2Cn2LomCnLo7CnLo2CnLo5Cn2MnLoMcMnMcMn4Cn2Mc2Cn2Mc2MnCn7Mn2McCn4Lo2CnLo3Mn2Cn2NdaSo",
    "LoNo6CnaMnLoCnLo6Cn3Lo3CnLo4Cn3Lo2CnLoCnLo2Cn3Lo2Cn3Lo3Cn3LocCn4Mc2MnMc2Cn3Mc3CnMc3MnCn2Lo",
    "Cn6McCneNdaNo3So6ScSoCn5MnMc3MnLo8CnLo3CnLonCnLogCn2MnLoMn3Mc4CnMn3CnMn4Cn7Mn2CnLo3Cn2LoCn2",
    "Lo2Mn2Cn2NdaCn7PoNo7SoLoMnMc2PoLo8CnLo3CnLonCnLoaCnLo5Cn2MnLoMcMnMc5CnMnMc2CnMc2Mn2Cn7Mc2Cn6",
    "Lo2CnLo2Mn2Cn2NdaCnLo2McCncMn2Mc2Lo9CnLo3CnLo15Mn2LoMc3Mn4CnMc3CnMc3MnLoSoCn4Lo3McNo7Lo3Mn2",
    "Cn2NdaNo9SoLo6CnMnMc2CnLoiCn3LooCnLo9CnLoCn2Lo7Cn3MnCn4Mc3Mn3CnMnCnMc8Cn6NdaCn2Mc2PoCncLo1c",
    "MnLo2Mn7Cn4ScLo6LmMn8PoNdaPo2Cn11Lo2CnLoCnLo5CnLooCnLoCnLoaMnLo2Mn9LoCn2Lo5CnLmCnMn7CnNdaCn2",
    "Lo4CnwLoSo3PofSoPoSo3Mn2So6NdaNoaSoMnSoMnSoMnPsPePsPeMc2Lo8CnLo10Cn4MneMcMn5PoMn2Lo5MnbCn",
    "Mn10CnSo8MnSo6CnSo2Po5So4Po2Cn11Lo17Mc2Mn4McMn6McMn2Mc2Mn2LoNdaPo6Lo6Mc2Mn2Lo4Mn3LoMc3Lo2Mc7",
    "Lo3Mn4LodMnMc2Mn2Mc6MnLoMcNdaMc3MnSo2Lu12CnLuCn5LuCn2Ll17PoLmLl3Lo95CnLo4Cn2Lo7CnLoCnLo4Cn2",
    "Lo15CnLo4Cn2LoxCnLo4Cn2Lo7CnLoCnLo4Cn2LofCnLo1lCnLo4Cn2Lo1vCn2Mn3Po9NokCn3LogSoaCn6Lu2eCn2",
    "Ll6Cn2PdLoh8SoPoLohZsLoqPsPeCn3Lo23Po3Nl3Lo8Cn7LoiMn3McCn9LojMn2McPo2Cn9LoiMn2CncLodCnLo3Cn",
    "Mn2CncLo1gMn2McMn7Mc8MnMc2MnbPo3LmPo3ScLoMnCn2NdaCn6NoaCn6Po6PdPo4Mn3CfMnNdaCn6LozLmLo1hCn7",
    "Lo5Mn2LoyMnLoCn5Lo1yCnaLovCnMn3Mc4Mn2Mc3Cn4Mc2MnMc6Mn3Cn4SoCn3Po2NdaLouCn2Lo5CnbLo18Cn4Loq",
    "Cn6NdaNoCn3SoyLonMn2Mc2MnCn2Po2Lo1hMcMnMcMn7CnMnMcMnMc2Mn8Mc6MnaCn2MnNdaCn6NdaCn6Po7LmPo6Cn2",
    "MneMeMngCn1dMn4McLo1bMnMcMn5McMnMc5MnMc2Lo8CnPo2NdaPo7SoaMn9So9Po3Mn2McLouMcMn4Mc2Mn2McMn3",
    "Lo2NdaLo18MnMcMn2Mc3MnMcMn3Mc2Cn8Po4Lo10Mc8Mn8Mc2Mn2Cn3Po5NdaCn3Lo3NdaLouLm6Po2Ll9LuLlCn5",
    "Lu17Cn2Lu3Po8Cn8Mn3PoMndMcMn7Lo4MnLo6MnLo2McMn2LoCn5Ll18Lm1rLldLmLlyLm11Mn1sLuLlLuLlLuLlLuLl",
    "LuLlLuLlLuLlLuLlLuLlLuLlLuLlLuLlLuLlLuLlLuLlLuLlLuLlLuLlLuLlLuLlLuLlLuLlLuLlLuLlLuLlLuLlLuLl",
    "LuLlLuLlLuLlLuLlLuLlLuLlLuLlLuLlLuLlLuLlLuLlLuLlLuLlLuLlLuLlLuLlLuLlLuLlLuLlLuLlLuLlLuLlLuLl",
    "LuLlLuLlLuLlLuLlLuLlLuLlLuLlLuLlLuLlLuLlLuLlLuLlLuLlLuLlLuLlLuLlLuLlLuLlLuLlLuLlLuLlLuLlLuLl",
    "LuLlLuLl9LuLlLuLlLuLlLuLlLuLlLuLlLuLlLuLlLuLlLuLlLuLlLuLlLuLlLuLlLuLlLuLlLuLlLuLlLuLlLuLlLu",
    "LlLuLlLuLlLuLlLuLlLuLlLuLlLuLlLuLlLuLlLuLlLuLlLuLlLuLlLuLlLuLlLuLlLuLlLuLlLuLlLuLlLuLlLuLlLu",
    "LlLuLlLuLlLuLlLuLlLuLl9Lu8Ll6Cn2Lu6Cn2Ll8Lu8Ll8Lu8Ll6Cn2Lu6Cn2Ll8CnLuCnLuCnLuCnLuLl8Lu8Lle",
    "Cn2Ll8Lt8Ll8Lt8Ll8Lt8Ll5CnLl2Lu4LtSkLlSk3Ll3CnLl2Lu4LtSk3Ll4Cn2Ll2Lu4CnSk3Ll8Lu5Sk3Cn2Ll3Cn",
    "Ll2Lu4LtSk2CnZsbCf5Pd6Po2PiPfPsPi2PfPsPiPo8ZlZpCf5ZsPo9PiPfPo4Pc2Po3SmPsPePobSmPoPcPoaZsCf5",
    "CnCfaNoLmCn2No6Sm3PsPeLmNoaSm3PsPeCnLmdCn3ScxCnfMndMe4MnMe3MncCnfSo2LuSo4LuSo2LlLu3Ll2Lu3Ll",
    "SoLuSo2SmLu5So6LuSoLuSoLuSoLu4SoLlLu4LlLo4LlSo2Ll2Lu2Sm5LuLl4SoSmSo2LlSoNogNlzLuLlNl4NoSo2",
    "Cn4Sm5So5Sm2So4SmSo2SmSo2SmSo7SmSovSm2So2SmSoSmSovSm7gSo8PsPePsPeSokSm2So7PsPeSo29SmSouSmp",
    "So14Sm6So20CnmSobCnlNo1oSo26NomSo53SmSo9SmSo1iSm8So33SmSo6wPsPePsPePsPePsPePsPePsPePsPeNou",
    "So18Sm5PsPeSmvPsPePsPePsPePsPePsPeSmgSo74Sm3nPsPePsPePsPePsPePsPePsPePsPePsPePsPePsPePsPe",
    "Sm1rPsPePsPeSmwPsPeSm76So1cSmlSo2Sm6So13Cn2SowCnSo2xLu1cLl1cLuLlLu3Ll2LuLlLuLlLuLlLu4LlLuLl2",
    "LuLl6Lm2Lu3LlLuLlLuLlLuLlLuLlLuLlLuLlLuLlLuLlLuLlLuLlLuLlLuLlLuLlLuLlLuLlLuLlLuLlLuLlLuLlLu",
    "LlLuLlLuLlLuLlLuLlLuLlLuLlLuLlLuLlLuLlLuLlLuLlLuLlLuLlLuLlLuLlLuLlLuLlLuLlLuLlLuLlLuLlLuLlLu",
    "LlLuLlLuLlLuLlLuLlLuLlLuLl2So6LuLlLuLlMn3LuLlCn5Po4NoPo2Ll12CnLlCn5LlCn2Lo1kCn7LmPoCneMnLon",
    "Cn9Lo7CnLo7CnLo7CnLo7CnLo7CnLo7CnLo7CnLo7CnMnwPo2PiPfPiPfPo3PiPfPoPiPfPo9PdPo2PdPoPiPfPo2Pi",
    "PfPsPePsPePsPePsPePo5LmPoaPd2Po4PdPoPsPodSo2Po3PsPePsPePsPePsPePdCnySoqCnSo2hCncSo5yCnqSogZs",
    "Po3SoLmLoNlPsPePsPePsPePsPePsPeSo2PsPePsPePsPePsPePdPsPe2SoNl9Mn4Mc2PdLm5So2Nl3LmLoPoSo2Cn",
    "Lo2eCn2Mn2Sk2Lm2LoPdLo2iPoLm3LoCn5Lo17CnLo2mCnSo2No4SoaLowSo12Cn9SoLogSovCnNoaSouNo8SoNofSow",
    "NoaSo13NofSo8wLo534So1sLog7pLmLovrCn3So1jCn9Lo14Lm6Po2Lo7gLmPo3LogNdaLo2CnkLuLlLuLlLuLlLuLl",
    "LuLlLuLlLuLlLuLlLuLlLuLlLuLlLuLlLuLlLuLlLuLlLuLlLuLlLuLlLuLlLuLlLuLlLuLlLuLlLoMnMe3PoMnaPoLm",
    "LuLlLuLlLuLlLuLlLuLlLuLlLuLlLuLlLuLlLuLlLuLlLuLlLuLlLuLlLm2Mn2Lo1yNlaMn2Po6Cn8SknLm9Sk2LuLl",
    "LuLlLuLlLuLlLuLlLuLlLuLl3LuLlLuLlLuLlLuLlLuLlLuLlLuLlLuLlLuLlLuLlLuLlLuLlLuLlLuLlLuLlLuLlLu",
    "LlLuLlLuLlLuLlLuLlLuLlLuLlLuLlLuLlLuLlLuLlLuLlLuLlLuLlLuLlLmLl8LuLlLuLlLu2LlLuLlLuLlLuLlLuLl",
    "LmSk2LuLlLuLlLoLuLlLuLl3LuLlLuLlLuLlLuLlLuLlLuLlLuLlLuLlLuLlLuLlLu5LlLu5LlLuLlLuLlLuLlLuLlLu",
    "LlLuLlLuLlLu4LlLuLlLu2LlCn2LuLlCnLlCnLlLuLlLuLlLuLlLuCnlLm3LuLlLoLm2LlLo7MnLo3MnLo4MnLonMc2",
    "Mn2McSo4MnCn3No6So2ScSoCn6Lo1gPo4Cn8Mc2Lo1eMcgMn2Cn8Po2NdaCn6MniLo6Po3LoPoLo2MnNdaLosMn8Po2",
    "LonMnbMc2CnbPoLotCn3Mn3McLo1bMnMc2Mn4Mc2Mn2Mc3PodCnLmNdaCn4Po2Lo5MnLmLo9NdaLo5CnLo15Mn6Mc2",
    "Mn2Mc2Mn2Cn9Lo3MnLo8MnMcCn2NdaCn2Po4LogLmLo6So3LoMcMnMcLo1eMnLoMn3Lo2Mn2Lo5Mn2LoMnLoCnoLo2Lm",
    "Po2LobMcMn2Mc2Po2LoLm2McMnCnaLo6Cn2Lo6Cn2Lo6Cn9Lo7CnLo7CnLl17SkLm4Ll9LmSk2Cn4Ll28LozMc2MnMc2",
    "MnMc2PoMcMnCn2NdaCn6Lo8mcCncLonCn4Lo1dCn4Cs1kwCo4xsLoa6Cn2Lo2yCn12Ll7CncLl5Cn5LoMnLoaSmLodCn",
    "Lo5CnLoCnLo2CnLo2CnLo30SkhCngLoa3PePsSogLo1sCn2Lo1iCn7SoCnwLocScSo3MngPo7PsPePoCn6MngPoPd2",
    "Pc2PsPePsPePsPePsPePsPePsPePsPePsPePo2PsPePo4Pc3Po3CnPo4PdPsPePsPePsPePo3SmPdSm3CnPoScPo2Cn4",
    "Lo5CnLo3rCn2CfCnPo3ScPo3PsPePoSmPoPdPo2NdaPo2Sm3Po2LuqPsPoPeSkPcSkLlqPsSmPeSmPsPePoPsPePo2",
    "LoaLmLo19Lm2LovCn3Lo6Cn2Lo6Cn2Lo6Cn2Lo3Cn3Sc2SmSkSoSc2CnSoSm4So2CnaCf3So2Cn2LocCnLoqCnLojCn",
    "Lo2CnLofCn2LoeCnyLo3fCn5Po3Cn4No19Cn3So9Nl1hNo4SohNo2So3CnSodCn3SoCn1bSo19MnCn3mLotCn3Lo1d",
    "CnfMnNorCn4LowNo4Cn9LokNlLo8NlCn5Lo12Mn5Cn5LouCnPoLo10Cn4Lo8PoNl5Cn16Lu14Ll14Lo26Cn2NdaCn6",
    "Lu10Cn4Ll10Cn4Lo14Cn8Lo1gCnbPoLubCnLufCnLu7CnLu2CnLlbCnLlfCnLl7CnLl2Cn3Lo1gCncLo8nCn9LomCna",
    "Lo8CnoLm6CnLm16CnLm9Cn1xLo6Cn2LoCnLo18CnLo2Cn3LoCn2LonCnPoNo8LonSo2No7LovCn8No9Cn1cLojCnLo2",
    "Cn5No5LomNo6Cn3PoLoqCn5PoCn1sLo1kCn4No2Lo2NogCn2No1aLoMn3CnMn2Cn5Mn4Lo4CnLo3CnLotCn2Mn3Cn4Mn",
    "No9Cn7Po9Cn7LotNo2PoLotNo3CnwLo8SoLosMn2Cn4No5Po7Cn9Lo1iCn3Po7LomCn2No8LojCn5No8LoiCn7Po4Cnc",
    "No7Cn28Lo21Cn1jLu1fCndLl1fCn7No6Lo10Mn4Cn8NdaCn6NdaLo4LmLoLumCn3Mn5PdLmLlmCn8Sm2Cn5sNovCn",
    "Lo16CnMn2PdCn2Lo2CngLo3Cn1jMn4LotNoaLoCn8LomMnbNo4Po5CnmLoiMn4Po4Cn12LolNo7CnkLonCn9McMnMc",
    "Lo1hMnfPo7Cn4NokNdaMnLo2Mn2LoCn9Mn3McLo19Mc3Mn4Mc2Mn2Po2CfPo4MnCnaCfCn2LopCn7NdaCn6Mn3Lo10",
    "Mn5McMn8CnNdaPo4LoMc2LoCn8LozMnPo2LoCn9Mn2McLo1cMc3Mn9Mc2Lo4Po4Mn4PoMcMnNdaLoPoLoPo3CnNokCnb",
    "LoiCnLopMc3Mn3Mc2MnMcMn2Po6MnLo2MnCn1qLo7CnLoCnLo4CnLofCnLoaPoCn6Lo1bMnMc3Mn8Cn5NdaCn6Mn2Mc2",
    "CnLo8Cn2Lo2Cn2LomCnLo7CnLo2CnLo5CnMn2LoMc2MnMc4Cn2Mc2Cn2Mc3Cn2LoCn6McCn5Lo5Mc2Cn2Mn7Cn3Mn5",
    "CnbLoaCnLoCn2LoCnLo12CnLoMc3Mn6CnMcCn2McCnMc4CnMc2MnMcMnLoMnLoPo2CnPo2Cn8Mn2CntLo1hMc3Mn8Mc2",
    "Mn3McMnLo4Po5NdaPo2CnPoMnLo3CnuLo1cMc3Mn6McMnMc4Mn2McMn2Lo2PoLoCn8NdaCn4mLo1bMc3Mn4Cn2Mc4Mn2",
    "McMn2PonLo4Mn2CnyLo1cMc3Mn8Mc2MnMcMn2Po3LoCnbNdaCn6PodCnjLo17MnMcMnMc2Mn6McMnLoPoCn6NdaCn6",
    "NdkCnsLorCn2MnMcMnMc2Mn4McMn5Cn4NdaNo2Po3SoLo7Cn55Lo18Mc3Mn9McMn2PoCn2sLuwLlwNdaNo9CncLo8Cn2",
    "LoCn2Lo8CnLo2CnLooMc6CnMc2Cn2Mn2McMnLoMcLoMcMnPo3Cn9NdaCn1yLo8Cn2Lo13Mc3Mn4Cn2Mn2Mc4MnLoPoLo",
    "McCnrLoMnaLo14Mn6McLoMn4Po8MnCn8LoMn6Mc2Mn3Lo1aMndMcMn2Po3LoPo5CndLo21Cn7PoaCn52LoxPoCneNda",
    "Cn6Lo9CnLo11McMn7CnMn6McMnLoPo5CnaNdaNojCn3Po2LouCn2MnmCnMcMn7McMn2McMn2Cn21Lo7CnLo2CnLo12",
    "Mn6Cn3MnCnMn2CnMn7LoMnCn8NdaCn6Lo6CnLo2CnLowMc5CnMn2CnMc2MnMcMnLoCn7NdaCn8mLojMn2Mc2Po2Cn7",
    "Mn2LoMcLodCnLoyMc2Mn5Cn3Mc2MnMcMnPodNdaMnCn2dLoCnfNolSo8Sc4SohCndPoLopmCn2uNl33CnPo5CnbLo5g",
    "Cn218Lo2pPo2CndLotsCfgMnLo6MnfCnaLo32zCn5Log7Cn5a1LouMncMc3Mn3NdaCn1c6LoftCn7LovCnNdaCn4Po2",
    "Lo27CnNdaCn6LouCn2Mn5PoCnaLo1cMn7Po5So4Lm4PoSoCnaNdaCnNo7CnLolCn5LojCnc0Lm3Lo14Lm2Po3NdaCn5i",
    "LuwLlwNonPo4Cn2tLo23Cn4MnLoMc1jCn7Mn4LmdCn1sLm2PoLmMnCnbMc2CneLo4qgCn8LoyeCn15LoaCn6w7Lm4Cn",
    "Lm7CnLm2CnLo83CnfLoCntLo3Cn2LoCneLo4Cn8Lob0Cn1s4Lo2zCn5LodCn3Lo9Cn7LoaCn2SoMn2PoCf4Cn318So6o",
    "NdaCn6Soc4Cn24Mn1aCn2MnnCn9So38Cn1oSo6uCnaSo13Cn2So1oMc2Mn3So3Mc6Cf8Mn8So2Mn7SouMn4So1pCnl",
    "So1uMn3SoCn3eNokCncNokCncSo2fCn9NopCn3rLuqLlqLuqLl7CnLliLuqLlqLuCnLu2Cn2LuCn2Lu2Cn2Lu4CnLu8",
    "Ll4CnLlCnLl7CnLlbLuqLlqLu2CnLu4Cn2Lu8CnLu7CnLlqLu2CnLu4CnLu5CnLuCn3Lu7CnLlqLuqLlqLuqLlqLuq",
    "LlqLuqLlqLuqLlqLuqLlsCn2LupSmLlpSmLl6LupSmLlpSmLl6LupSmLlpSmLl6LupSmLlpSmLl6LupSmLlpSmLl6Lu",
    "LlCn2Nd1eSoe8Mn1jSo4Mn1eSo8MnSoeMnSo2Po5CnfMn5CnMnfCnuoLlaLoLlkCn6Ll6Cn5xMn7CnMnhCn2Mn7CnMn2",
    "CnMn5Cn5Lm1qCnxMnCn34Lo19Cn3Mn7Lm7Cn2NdaCn4LoSoCn8wLouMnCnhLo18Mn4NdaCn5ScCncwLorLmMn4Nda",
    "Cn5yLouMn2LoNdaCn4PoCndcLo7CnLo4CnLo2CnLofCnLo5hCn2No9Mn7Cn15LuyLlyMn7LmCn4NdaCn4Po2CnltNo1n",
    "SoNo3ScNo4Cn24No19SoNofCn5eLo4CnLorCnLo2CnLoCn2LoCnLoaCnLo4CnLoCnLoCn6LoCn4LoCnLoCnLoCnLo3Cn",
    "Lo2CnLoCn2LoCnLoCnLoCnLoCnLoCnLo2CnLoCn2Lo4CnLo7CnLo4CnLo4CnLoCnLoaCnLohCn5Lo3CnLo5CnLohCn1g",
    "Sm2Cn7iSo18Cn4So2sCncSofCn2SofCnSofCnSo11CnaNodSo4hCn1kSotCndSo18Cn4So9Cn7So2CneSo6Cn4aSo6z",
    "Sk5Sok8Cn4SohCn3SodCn3So3bCn4So2nCn6SocCn4SoCnfSocCn4So1kCn8SoaCn6So14Cn8SouCn2SocCn4So2Cn1q",
    "So9gCncSoeCn2SodCn3SoaCn5So1kCn7SofCn2SobCn6So9Cn7So43CnSo2kNdaCnsmLowyoCnwLo37eCn6Lo66Cn2",
    "Lo4g2CneLo5rlCnfLohaCn1wiLof2Cn15uLo3t7Cn5Lo38gCnf975CfCnuCf2oCn3kMn6oCn1e6oCo1ekeCn2Co1eke",
    "Cn2"]

def ofCategories (codes : List String) : CharSet :=
  setOfRuns categoryRuns codes.contains

def ofCategoryGroup (letter : Char) : CharSet :=
  setOfRuns categoryRuns fun code => code.front == letter

def letters : CharSet := ofCategoryGroup 'L'

end DocSchema.Character
