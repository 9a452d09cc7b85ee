/-
  DocSchema/Character/Script.lean
  ===============================
  **The scripts that characters are written in.**

  Every code point has one script, by a code of four letters; `Zyyy` is common to all scripts,
  `Zinh` takes the script of the character before, and `Zzzz` is none.  Some characters are in
  use in several scripts; for these the table of shared characters lists all of them, and they
  no longer count for their own script alone.
-/
import DocSchema.Character.Table

namespace DocSchema.Character

def scriptRuns : List Run := readRuns 4 [
    "Zyyy1tLatnqZyyy6LatnqZyyy1bLatnZyyyfLatnZyyy5LatnnZyyyLatnvZyyyLatnchZyyy13Latn5Zyyy5Bopo2",
    "ZyyykZinh34Grek4ZyyyGrek3Zzzz2Grek4ZyyyGrekZzzz4GrekZyyyGrekZyyyGrek3ZzzzGrekZzzzGrekkZzzz",
    "Grek1rCopteGrekgCyrl3pZinh2Cyrl4pZzzzArmn12Zzzz2Armn1eZzzz2Armn3ZzzzHebr1jZzzz8HebrrZzzz4",
    "Hebr6ZzzzbArab5ZyyyArab6ZyyyArabeZyyyArab3ZyyyArabwZyyyArabaZinhbArabqZinhArab30ZyyyAraby",
    "SyrceZzzzSyrc1oZzzz2Syrc3Arab1cThaa1eZzzzeNkoo1nZzzz2Nkoo3Samr1aZzzz2SamrfZzzzMandsZzzz2Mand",
    "ZzzzSyrcbZzzz5ArabvZzzzArab2Zzzz5Arab23ZyyyArabtDeva29Zinh4DevafZyyy2DevaqBeng4ZzzzBeng8",
    "Zzzz2Beng2Zzzz2BengmZzzzBeng7ZzzzBengZzzz3Beng4Zzzz2Beng9Zzzz2Beng2Zzzz2Beng4Zzzz8BengZzzz4",
    "Beng2ZzzzBeng5Zzzz2BengpZzzz2Guru3ZzzzGuru6Zzzz4Guru2Zzzz2GurumZzzzGuru7ZzzzGuru2ZzzzGuru2",
    "ZzzzGuru2Zzzz2GuruZzzzGuru5Zzzz4Guru2Zzzz2Guru3Zzzz3GuruZzzz7Guru4ZzzzGuruZzzz7GuruhZzzza",
    "Gujr3ZzzzGujr9ZzzzGujr3ZzzzGujrmZzzzGujr7ZzzzGujr2ZzzzGujr5Zzzz2GujraZzzzGujr3ZzzzGujr3Zzzz2",
    "GujrZzzzfGujr4Zzzz2GujrcZzzz7Gujr7ZzzzOrya3ZzzzOrya8Zzzz2Orya2Zzzz2OryamZzzzOrya7ZzzzOrya2",
    "ZzzzOrya5Zzzz2Orya9Zzzz2Orya2Zzzz2Orya3Zzzz7Orya3Zzzz4Orya2ZzzzOrya5Zzzz2OryaiZzzzaTaml2Zzzz",
    "Taml6Zzzz3Taml3ZzzzTaml4Zzzz3Taml2ZzzzTamlZzzzTaml2Zzzz3Taml2Zzzz3Taml3Zzzz3TamlcZzzz4Taml5",
    "Zzzz3Taml3ZzzzTaml4Zzzz2TamlZzzz6TamlZzzzeTamllZzzz5TeludZzzzTelu3ZzzzTelunZzzzTelugZzzz2",
    "Telu9ZzzzTelu3ZzzzTelu4Zzzz7Telu2ZzzzTelu3Zzzz2TeluZzzz2Telu4Zzzz2TeluaZzzz7Telu9KndadZzzz",
    "Knda3ZzzzKndanZzzzKndaaZzzzKnda5Zzzz2Knda9ZzzzKnda3ZzzzKnda4Zzzz7Knda2Zzzz6Knda2ZzzzKnda4",
    "Zzzz2KndaaZzzzKnda3ZzzzcMlymdZzzzMlym3ZzzzMlym1fZzzzMlym3ZzzzMlym6Zzzz4MlymgZzzz2MlymqZzzz",
    "Sinh3ZzzzSinhiZzzz3SinhoZzzzSinh9ZzzzSinhZzzz2Sinh7Zzzz3SinhZzzz4Sinh6ZzzzSinhZzzzSinh8Zzzz6",
    "SinhaZzzz2Sinh3ZzzzcThai1mZzzz4ZyyyThaisZzzz11Laoo2ZzzzLaooZzzzLaoo5ZzzzLaoooZzzzLaooZzzz",
    "LaoonZzzz2Laoo5ZzzzLaooZzzzLaoo7ZzzzLaooaZzzz2Laoo4ZzzzwTibt20ZzzzTibt10Zzzz4Tibt13Zzzz",
    "Tibt10ZzzzTibtfZzzzTibt7Zyyy4Tibt2Zzzz11Mymr4gGeor12ZzzzGeorZzzz5GeorZzzz2Geor17ZyyyGeor4",
    "Hang74Ethi21ZzzzEthi4Zzzz2Ethi7ZzzzEthiZzzzEthi4Zzzz2Ethi15ZzzzEthi4Zzzz2EthixZzzzEthi4Zzzz2",
    "Ethi7ZzzzEthiZzzzEthi4Zzzz2EthifZzzzEthi1lZzzzEthi4Zzzz2Ethi1vZzzz2EthiwZzzz3EthiqZzzz6",
    "Cher2eZzzz2Cher6Zzzz2CanshsOgamtZzzz3Runr23Zyyy3RunrbZzzz7TglgmZzzz9TglgHanolZyyy2Zzzz9Buhdk",
    "ZzzzcTagbdZzzzTagb3ZzzzTagb2ZzzzcKhmr2mZzzz2KhmraZzzz6KhmraZzzz6Mong2Zyyy2MongZyyyMongkZzzz6",
    "Mong2hZzzz7Mong17Zzzz5Cans1yZzzzaLimbvZzzzLimbcZzzz4LimbcZzzz4LimbZzzz3LimbcTaleuZzzz2Tale5",
    "ZzzzbTalu18Zzzz4TaluqZzzz6TalubZzzz3Talu2KhmrwBugisZzzz2Bugi2Lana1rZzzzLanatZzzz2LanabZzzz6",
    "LanaaZzzz6LanaeZzzz2ZinhvZzzz1dBali25ZzzzBali1eSund1sBatk1gZzzz8Batk4Lepc1kZzzz3LepcfZzzz3",
    "Lepc3Olck1cCyrlbZzzz5Geor17Zzzz2Geor3Sund8Zzzz8Zinh3ZyyyZinhdZyyyZinh7Zyyy4ZinhZyyy6Zinh",
    "Zyyy3Zinh2ZyyyZzzz5Latn12Grek5CyrlLatn1dGrek5Latn4Grek5LatndCyrlLatn1yGrekZinh1sLatn74Grekm",
    "Zzzz2Grek6Zzzz2Grek12Zzzz2Grek6Zzzz2Grek8ZzzzGrekZzzzGrekZzzzGrekZzzzGrekvZzzz2Grek1hZzzz",
    "GrekfZzzzGrekeZzzz2Grek6ZzzzGrekjZzzz2Grek3ZzzzGrek9ZzzzZyyycZinh2Zyyy2fZzzzZyyybLatnZzzz2",
    "ZyyybLatnZyyyfZzzzLatndZzzz3ZyyyxZzzzfZinhxZzzzfZyyy12GrekZyyy3Latn2Zyyy6LatnZyyyrLatnZyyyh",
    "Latn15Zyyy3Zzzz4ZyyyiiZzzzmZyyybZzzzlZyyypsBrai74ZyyyhgZzzz2ZyyywZzzzZyyy2xGlag2oLatnwCopt38",
    "Zzzz5Copt7Geor12ZzzzGeorZzzz5GeorZzzz2Tfng1kZzzz7Tfng2ZzzzeTfngEthinZzzz9Ethi7ZzzzEthi7Zzzz",
    "Ethi7ZzzzEthi7ZzzzEthi7ZzzzEthi7ZzzzEthi7ZzzzEthi7ZzzzCyrlwZyyy2mZzzzyHaniqZzzzHani2hZzzzc",
    "Hani5yZzzzqZyyylHaniZyyyHaniZyyypHani9Zinh4Hang2Zyyy8Hani4Zyyy4ZzzzHira2eZzzz2Zinh2Zyyy2",
    "Hira3ZyyyKana2iZyyy2Kana3Zzzz5Bopo17ZzzzHang2mZzzzZyyygBopowZyyy12Zzzz9ZyyyKanagHangvZzzz",
    "Zyyy1sHangvZyyy29Kana1bZyyyKana2gZyyy4oHani534Zyyy1sHanig74YiiiwdZzzz3Yiii1jZzzz9Lisu1c",
    "Vaii8cZzzzkCyrl2oBamu2gZzzz8ZyyyyLatn2uZyyy3Latn1vZzzz2Latn2ZzzzLatnZzzzLatn8ZzzzlLatne",
    "Sylo19Zzzz3ZyyyaZzzz6Phag1kZzzz8Saur1yZzzz8SaurcZzzz6DevawKali1aZyyyKaliRjng10ZzzzbRjngHangt",
    "Zzzz3Java26ZzzzZyyyJavaaZzzz4Java2MymrvZzzzCham1jZzzz9ChameZzzz2ChamaZzzz2Cham4MymrwTavt1v",
    "ZzzzoTavt5MteinZzzzaEthi6Zzzz2Ethi6Zzzz2Ethi6Zzzz9Ethi7ZzzzEthi7ZzzzLatn17ZyyyLatn9GrekLatn4",
    "Zyyy2Zzzz4Cher28Mtei1aZzzz2MteiaZzzz6Hang8mcZzzzcHangnZzzz4Hang1dZzzz6isHania6Zzzz2Hani2y",
    "Zzzz12Latn7ZzzzcArmn5Zzzz5HebrqZzzzHebr5ZzzzHebrZzzzHebr2ZzzzHebr2ZzzzHebraArab37ZzzzgAraba3",
    "Zyyy2Arab28Zzzz2Arab1iZzzz7ArabZzzzwArabgZinhgZyyyaZzzz6ZinheCyrl2ZyyyzZzzzZyyyjZzzzZyyy4",
    "Zzzz4Arab5ZzzzArab3rZzzz2ZyyyZzzzZyyywLatnqZyyy6LatnqZyyybKanaaZyyyKana19Zyyy2HangvZzzz3",
    "Hang6Zzzz2Hang6Zzzz2Hang6Zzzz2Hang3Zzzz3Zyyy7ZzzzZyyy7ZzzzaZyyy5Zzzz2LinbcZzzzLinbqZzzzLinbj",
    "ZzzzLinb2ZzzzLinbfZzzz2LinbeZzzzyLinb3fZzzz5Zyyy3Zzzz4Zyyy19Zzzz3Zyyy9Grek27ZzzzZyyydZzzz3",
    "GrekZzzz1bZyyy19ZinhZzzz3mLycitZzzz3Cari1dZzzzfZinhZyyyrZzzz4Ital10Zzzz9Ital3GothrZzzz5",
    "Perm17Zzzz5UgaruZzzzUgarXpeo10Zzzz4XpeoeZzzz16Dsrt28Shaw1cOsmauZzzz2OsmaaZzzz6Osge10Zzzz4",
    "Osge10Zzzz4Elba14Zzzz8Aghb1gZzzzbAghbVithbZzzzVithfZzzzVith7ZzzzVith2ZzzzVithbZzzzVithfZzzz",
    "Vith7ZzzzVith2Zzzz3Todr1gZzzzcLina8nZzzz9LinamZzzzaLina8ZzzzoLatn6ZzzzLatn16ZzzzLatn9Zzzz1x",
    "Cprt6Zzzz2CprtZzzzCprt18ZzzzCprt2Zzzz3CprtZzzz2CprtArmimZzzzArmi9PalmwNbatvZzzz8Nbat9Zzzz1c",
    "HatrjZzzzHatr2Zzzz5Hatr5PhnxsZzzz3PhnxLydiqZzzz5LydiZzzz1sMerowMercoZzzz4MerckZzzz2Merc1a",
    "Khar4ZzzzKhar2Zzzz5Khar8ZzzzKhar3ZzzzKhartZzzz2Khar3Zzzz4KharaZzzz7Khar9Zzzz7SarbwNarbwZzzzw",
    "Mani13Zzzz4ManicZzzz9Avst1iZzzz3Avst7PrtimZzzz2Prti8PhlijZzzz5Phli8PhlpiZzzz7Phlp4ZzzzcPhlp7",
    "Zzzz28Orkh21Zzzz1jHung1fZzzzdHung1fZzzz7Hung6Rohg14Zzzz8RohgaZzzz6Gara12Zzzz3GaratZzzz8Gara2",
    "Zzzz5sArabvZzzzYezi16ZzzzYezi3Zzzz2Yezi2ZzzzgArab3Zzzz1jArab4Sogo14Zzzz8Sogd16ZzzzmOugrq",
    "Zzzz12ChrssZzzzkElymnZzzz9Brah26Zzzz4Brah10Zzzz9BrahKthi1vZzzzaKthiZzzz2SorapZzzz7SoraaZzzz6",
    "Cakm1hZzzzCakmiZzzz8Mahj13Zzzz9Shrd2oZzzzSinhkZzzzbKhojiZzzzKhoj1bZzzz1qMult7ZzzzMultZzzz",
    "Mult4ZzzzMultfZzzzMultbZzzz6Sind1nZzzz5SindaZzzz6Gran4ZzzzGran8Zzzz2Gran2Zzzz2GranmZzzzGran7",
    "ZzzzGran2ZzzzGran5ZzzzZinhGran9Zzzz2Gran2Zzzz2Gran3Zzzz2GranZzzz6GranZzzz5Gran7Zzzz2Gran7",
    "Zzzz3Gran5ZzzzbTutgaZzzzTutgZzzz2TutgZzzzTutg12ZzzzTutgaZzzzTutgZzzz2TutgZzzzTutg4ZzzzTutga",
    "ZzzzTutg2Zzzz8Tutg2ZzzztNewa2kZzzzNewa5ZzzzuTirh20Zzzz8TirhaZzzz4mSidd1iZzzz2Sidd12Zzzzy",
    "Modi1xZzzzbModiaZzzz6MongdZzzzjTakr1mZzzz6TakraZzzz6MymrkZzzzsAhomrZzzz2AhomfZzzz4Ahomn",
    "Zzzz55Dogr1oZzzz2sWara2bZzzzcWaraDiak7Zzzz2DiakZzzz2Diak8ZzzzDiak2ZzzzDiakuZzzzDiak2Zzzz2",
    "DiakcZzzz9DiakaZzzz1yNand8Zzzz2Nand1aZzzz2NandbZzzzrZanb20Zzzz8Soyo2bZzzzdCansgPauc1lZzzz7",
    "DevaaZzzz52SunuyZzzzeSunuaZzzz6Bhks9ZzzzBhks19ZzzzBhkseZzzzaBhkstZzzz3MarcwZzzz2MarcmZzzz",
    "MarceZzzz21Gonm7ZzzzGonm2ZzzzGonm18Zzzz3GonmZzzzGonm2ZzzzGonm9Zzzz8GonmaZzzz6Gong6ZzzzGong2",
    "ZzzzGong11ZzzzGong2ZzzzGong6Zzzz7GongaZzzz8mMakapZzzz7KawihZzzzKawi15Zzzz3KawitZzzz2dLisu",
    "ZzzzfTaml1eZzzzdTamlXsuxpmZzzz2uXsux33ZzzzXsux5ZzzzbXsux5gZzzz218Cpmn2rZzzzdEgypuuZzzza",
    "Egyp32zZzzz5Hluwg7Zzzz5a1Gukh1mZzzz1c6BamuftZzzz7MroovZzzzMrooaZzzz4Mroo2Tnsa27ZzzzTnsaa",
    "Zzzz6BassuZzzz2Bass6ZzzzaHmng1yZzzzaHmngaZzzzHmng7ZzzzHmnglZzzz5HmngjZzzzc0Krai1mZzzz5i",
    "Medf2jZzzz2tPlrd23Zzzz4Plrd1lZzzz7PlrdhZzzz1sTangNshuHani2KitsZzzzbHani2ZzzzeTang4qgZzzz8",
    "TanglcKitsd2Zzzz15KitsTang9Zzzz6w7Kana4ZzzzKana7ZzzzKana2ZzzzKanaHira7zKana3ZzzzfHiraZzzzt",
    "Hira3Zzzz2KanaZzzzeKana4Zzzz8Nshub0Zzzz1s4Dupl2zZzzz5DupldZzzz3Dupl9Zzzz7DuplaZzzz2Dupl4",
    "Zyyy4Zzzz318Zyyy6yZzzz6Zyyyc4Zzzz24Zinh1aZzzz2ZinhnZzzz9Zyyy38Zzzz1oZyyy6uZzzzaZyyy13Zzzz2",
    "Zyyy1qZinh3ZyyyhZinh8Zyyy2Zinh7ZyyyuZinh4Zyyy1pZzzzlGrek1yZzzz3eZyyykZzzzcZyyykZzzzcZyyy2f",
    "Zzzz9ZyyypZzzz3rZyyy2dZzzzZyyy1zZzzzZyyy2Zzzz2ZyyyZzzz2Zyyy2Zzzz2Zyyy4ZzzzZyyycZzzzZyyyZzzz",
    "Zyyy7ZzzzZyyy1tZzzzZyyy4Zzzz2Zyyy8ZzzzZyyy7ZzzzZyyysZzzzZyyy4ZzzzZyyy5ZzzzZyyyZzzz3Zyyy7Zzzz",
    "Zyyy9gZzzz2Zyyy84Zzzz2Zyyy1eSgnwi4ZzzzfSgnw5ZzzzSgnwfZzzzuoLatnvZzzz6Latn6Zzzz5xGlag7Zzzz",
    "GlaghZzzz2Glag7ZzzzGlag2ZzzzGlag5Zzzz5Cyrl1qZzzzxCyrlZzzz34Hmnp19Zzzz3HmnpeZzzz2HmnpaZzzz4",
    "Hmnp2Zzzz8wTotovZzzzhWcho1mZzzz5WchoZzzzcwNagm16Zzzz5yOnao17Zzzz4OnaoZzzzdcEthi7ZzzzEthi4",
    "ZzzzEthi2ZzzzEthifZzzzMend5hZzzz2MendgZzzz15Adlm24Zzzz4AdlmaZzzz4Adlm2ZzzzltZyyy1wZzzz24",
    "Zyyy1pZzzz5eArab4ZzzzArabrZzzzArab2ZzzzArabZzzz2ArabZzzzArabaZzzzArab4ZzzzArabZzzzArabZzzz6",
    "ArabZzzz4ArabZzzzArabZzzzArabZzzzArab3ZzzzArab2ZzzzArabZzzz2ArabZzzzArabZzzzArabZzzzArabZzzz",
    "ArabZzzzArab2ZzzzArabZzzz2Arab4ZzzzArab7ZzzzArab4ZzzzArab4ZzzzArabZzzzArabaZzzzArabhZzzz5",
    "Arab3ZzzzArab5ZzzzArabhZzzz1gArab2Zzzz7iZyyy18Zzzz4Zyyy2sZzzzcZyyyfZzzz2ZyyyfZzzzZyyyfZzzz",
    "Zyyy11ZzzzaZyyy4uZzzz1kZyyyqHiraZyyy2ZzzzdZyyy18Zzzz4Zyyy9Zzzz7Zyyy2ZzzzeZyyy6Zzzz4aZyyyrc",
    "Zzzz4ZyyyhZzzz3ZyyydZzzz3Zyyy3bZzzz4Zyyy2nZzzz6ZyyycZzzz4ZyyyZzzzfZyyycZzzz4Zyyy1kZzzz8Zyyya",
    "Zzzz6Zyyy14Zzzz8ZyyyuZzzz2ZyyycZzzz4Zyyy2Zzzz1qZyyy9gZzzzcZyyyeZzzz2ZyyydZzzz3ZyyyaZzzz5",
    "Zyyy1kZzzz7ZyyyfZzzz2ZyyybZzzz6Zyyy9Zzzz7Zyyy43ZzzzZyyy2uZzzzsmHaniwyoZzzzwHani37eZzzz6",
    "Hani66Zzzz2Hani4g2ZzzzeHani5rlZzzzfHanihaZzzz1wiHanif2Zzzz15uHani3t7Zzzz5Hani38gZzzzf975Zyyy",
    "ZzzzuZyyy2oZzzz3kZinh6oZzzz47bk"]

def ofScript (code : String) : CharSet :=
  setOfRuns scriptRuns (· == code)

/-! ### Characters of several scripts -/

/-- Ranges of characters that several scripts share, each with the codes of its scripts. -/
def sharedTable : List String := [
    "53AvstCariCoptDuplElbaGeorGlagGongGothGrekHaniLatnLydiMahjPermShaw",
    "ecBengCyrlDevaLatnLisuThaiToto aBopoLatn 1+2BopoLatn 1LatnLisu 9LatnThai 1BopoLatn",
    "12CherCoptCyrlGrekLatnPermSunuTale 0CherCyrlGrekLatnOsgeSunuTaleTodr 0CherCyrlLatnTfng",
    "0GlagLatnSunuSyrcThai 0AghbCherCoptCyrlGothGrekLatnOsgeSyrcTfngTodr",
    "0CoptElbaGlagGothKanaLatn 0CyrlGrekLatnPermTfng 0CoptDuplHebrLatnPermSyrcTaleTfngTodr",
    "0ArmnCyrlDuplGothGrekHebrLatnPermSyrcTaleTfng 0LatnTfng 0DuplLatnSyrc 0CherCyrlLatnOsge",
    "0CherLatnTale 0LatnSunu 0EthiLatn 1LatnSunu 0CyrlLatnTodr 1GrekLatnPermTodr",
    "fCherDuplKanaLatnSyrcTfng 0CherDuplLatnSyrc 0LatnSyrc 7LatnSunuSyrc 0LatnSyrc 1CherLatnSyrc",
    "0AghbCherGothLatnSunuSyrcThai gGrek 2Grek iLatnOsge 5AghbLatnTodr 4+cLatn 4+1CoptGrek",
    "7hCyrlPerm 0CyrlGlag 0+1CyrlLatn 0CyrlGlag 75ArmnGeorGlag 3mArabGaraNkooRohgSyrcThaaYezi",
    "eArabGaraNkooRohgSyrcThaaYezi 0ArabSyrcThaa 2AdlmArabGaraNkooRohgSyrcThaaYezi",
    "wAdlmArabMandManiOugrPhlpRohgSogdSyrc a+aArabSyrc a+9ArabThaaYezi 6ArabSyrc 2rArabRohg",
    "hoBengDevaGranGujrGuruKndaLatnMlymNandNewaOryaShrdTamlTeluTirh",
    "0BengDevaGranGujrGuruKndaLatnMlymNewaOryaTamlTeluTirh",
    "hBengDevaDogrGongGonmGranGujrGuruKndaMahjMlymNandOnaoOryaSindSinhSyloTakrTamlTeluTirh",
    "0BengDevaDogrGongGonmGranGujrGukhGuruKndaLimbMahjMlymNandOnaoOryaSindSinhSyloTakrTamlTeluTirh",
    "0+9DevaDogrKthiMahj 3a+9BengCakmSylo 3a+9GuruMult 3a+9GujrKhoj 6u+dGranTaml 6q+9KndaNandTutg",
    "nk+9CakmMymrTale 4xGeorGlagLatn 167+2Runr 1z+1BuhdHanoTagbTglg 5n+1MongPhag 1MongPhag",
    "y2BengDevaGranKnda 0Deva 0BengDevaGranKnda 0DevaGranKnda 0Deva 0BengDevaNewaTeluTirh",
    "0BengDevaTelu 0DevaNewaShrd 0BengDevaNewaTelu 0DevaShrd 0DevaKndaMlymOryaTamlTelu 0Deva",
    "0+1DevaShrd 0+1Deva 0DevaShrd 0BengDeva 0DevaNewaTirh 0+5Deva 0DevaNandNewa 0BengDevaShrd",
    "0DevaNewa 0Deva 0BengDevaNewaShrd 0+3Deva 0BengDevaGranKndaMlymNandOryaSinhTeluTirhTutg",
    "0DevaGran 0DevaGranKndaTutg 0+1BengDeva 0Beng 0+1DevaGran 0Nand 5h+1Grek 1iCyrlLatnSyrc",
    "1Syrc foLatnMongPhag vAdlmArab aCariGeorGlagHungLyciOrkh 2CariGrekHungMero 42DevaGranLatn",
    "2liCoptLatn oAvstOrkh 0AvstCariGeorHungKthiLydiSamr aDupl 4AdlmArabHung 1CyrlGlag",
    "bw+fHaniTang 1BopoHangHaniHiraKanaMongYiii 0BopoHangHaniHiraKanaMongPhagYiii",
    "0BopoHangHaniHiraKana 2Hani 1+1BopoHangHaniHiraKanaMongTibtYiii",
    "0+1BopoHangHaniHiraKanaLisuMongTibtYiii 0+5BopoHangHaniHiraKanaYiii 1BopoHangHaniHiraKana",
    "0+7BopoHangHaniHiraKanaYiii 0+3BopoHangHaniHiraKana a+3BopoHani 2BopoHangHaniHiraKana",
    "0+4HiraKana 1BopoHangHaniHiraKana 4+1HaniHiraKana 0+1Hani 2h+3HiraKana 3HiraKana",
    "2iBopoHangHaniHiraKanaYiii 0HiraKana 43+fHani w+11Hani 9HaniTang 1c+13Hani 1k+1cHani f+bHani",
    "1fHani 2g+oHani a+4Hani 2o+uHani mlsCyrlGlag 40+7HaniLatn",
    "88+2DevaDogrGujrGuruKhojKndaKthiMahjMlymModiNandShrdSindTakrTirhTutg",
    "0+2DevaDogrGujrGuruKhojKndaKthiMahjModiNandShrdSindTakrTirhTutg",
    "0+1DevaDogrGujrGuruKhojKthiMahjModiSindTakrTirh",
    "0DevaDogrGujrGuruKhojKthiMahjModiShrdSindTakrTirh",
    "0DevaDogrGujrGuruKhojKthiMahjModiSindTakrTirh 53BengDevaTutg 1DevaTaml 1mKaliLatnMymr",
    "4gBugiJava gha+1ArabNkoo 4yArabThaa aArabThaa 1z+1BopoHangHaniHiraKana",
    "7u+4BopoHangHaniHiraKanaYiii aHiraKana 19+1HiraKana 9s+1CpmnCprtLinb 0CprtLinb",
    "4+18CprtLinaLinb 3+8CprtLinb bk+rArabCopt 1kmManiOugr 1laGranTaml 1GranTaml 1j+1GranTaml",
    "2hf+1GranTaml 1GranTaml uz0+3Dupl 4ho+hHani 63i+1Hani"]

/-- Cuts a text into codes of four letters. -/
def codesOf : List Char → List String
  | a :: b :: c :: d :: rest => String.ofList [a, b, c, d] :: codesOf rest
  | _ => []

/-- A range of shared characters: its distance from the one before, its extent, and its
scripts. -/
def readShared (cs : List Char) : (Nat × Nat) × List String :=
  let range := cs.takeWhile (!·.isUpper)
  (readRange range, codesOf (cs.drop range.length))

/-- Gives every range its first code point; `n` is the one after the range before. -/
def placeShared : Nat → List ((Nat × Nat) × List String) → List (CharSet × List String)
  | _, [] => []
  | n, ((distance, extent), codes) :: rest =>
    let first := n + distance
    (.range first (first + extent), codes) :: placeShared (first + extent + 1) rest

def shared : List (CharSet × List String) :=
  placeShared 0 ((sharedTable.flatMap wordsOf).map readShared)

def inScript (code : String) : CharSet :=
  let own := (ofScript code).difference (.unionAll (shared.map (·.1)))
  own.union (.unionAll ((shared.filter (·.2.contains code)).map (·.1)))

/-! ### Names -/

/-- Codes of the scripts, each followed by its name in small letters without separators. -/
def scriptNameTable : List String := [
    "Adlmadlam Aghbcaucasianalbanian Ahomahom Arabarabic Armiimperialaramaic Armnarmenian",
    "Avstavestan Balibalinese Bamubamum Bassbassavah Batkbatak Bengbengali Bhksbhaiksuki",
    "Bopobopomofo Brahbrahmi Braibraille Bugibuginese Buhdbuhid Cakmchakma Canscanadianaboriginal",
    "Caricarian Chamcham Chercherokee Chrschorasmian Coptcoptic Cpmncyprominoan Cprtcypriot",
    "Cyrlcyrillic Devadevanagari Diakdivesakuru Dogrdogra Dsrtdeseret Duplduployan",
    "Egypegyptianhieroglyphs Elbaelbasan Elymelymaic Ethiethiopic Garagaray Georgeorgian",
    "Glagglagolitic Gonggunjalagondi Gonmmasaramgondi Gothgothic Grangrantha Grekgreek",
    "Gujrgujarati Gukhgurungkhema Gurugurmukhi Hanghangul Hanihan Hanohanunoo Hatrhatran",
    "Hebrhebrew Hirahiragana Hluwanatolianhieroglyphs Hmngpahawhhmong Hmnpnyiakengpuachuehmong",
    "Hungoldhungarian Italolditalic Javajavanese Kalikayahli Kanakatakana Kawikawi Kharkharoshthi",
    "Khmrkhmer Khojkhojki Kitskhitansmallscript Kndakannada Kraikiratrai Kthikaithi Lanataitham",
    "Laoolao Latnlatin Lepclepcha Limblimbu Linalineara Linblinearb Lisulisu Lycilycian",
    "Lydilydian Mahjmahajani Makamakasar Mandmandaic Manimanichaean Marcmarchen Medfmedefaidrin",
    "Mendmendekikakui Mercmeroiticcursive Meromeroitichieroglyphs Mlymmalayalam Modimodi",
    "Mongmongolian Mroomro Mteimeeteimayek Multmultani Mymrmyanmar Nagmnagmundari Nandnandinagari",
    "Narboldnortharabian Nbatnabataean Newanewa Nkoonko Nshunushu Ogamogham Olckolchiki",
    "Onaoolonal Orkholdturkic Oryaoriya Osgeosage Osmaosmanya Ougrolduyghur Palmpalmyrene",
    "Paucpaucinhau Permoldpermic Phagphagspa Phliinscriptionalpahlavi Phlppsalterpahlavi",
    "Phnxphoenician Plrdmiao Prtiinscriptionalparthian Rjngrejang Rohghanifirohingya Runrrunic",
    "Samrsamaritan Sarboldsoutharabian Saursaurashtra Sgnwsignwriting Shawshavian Shrdsharada",
    "Siddsiddham Sindkhudawadi Sinhsinhala Sogdsogdian Sogooldsogdian Sorasorasompeng Soyosoyombo",
    "Sundsundanese Sunusunuwar Sylosylotinagri Syrcsyriac Tagbtagbanwa Takrtakri Taletaile",
    "Talunewtailue Tamltamil Tangtangut Tavttaiviet Telutelugu Tfngtifinagh Tglgtagalog",
    "Thaathaana Thaithai Tibttibetan Tirhtirhuta Tnsatangsa Todrtodhri Totototo Tutgtulutigalari",
    "Ugarugaritic Vaiivai Vithvithkuqi Warawarangciti Wchowancho Xpeooldpersian Xsuxcuneiform",
    "Yeziyezidi Yiiiyi Zanbzanabazarsquare Zinhinherited Zyyycommon"]

/-- The scripts: the code and the name of each. -/
def scriptNames : List (String × String) :=
  (scriptNameTable.flatMap wordsOf).map fun cs =>
    (String.ofList (cs.take 4), String.ofList (cs.drop 4))

/-- The code of a script that is named, in small letters, by its code or its name. -/
def scriptCode? (name : String) : Option String :=
  if name == "qaac" then some "Copt"
  else if name == "qaai" then some "Zinh"
  else (scriptNames.find? fun s => s.1.toLower == name || s.2 == name).map (·.1)

end DocSchema.Character
