import Swimlane.Http.Charset.Basic
import Swimlane.Text.Blank

/-!
# Names of character sets
-/

namespace Swimlane.Http.Charset

/-- The names of the sets, in small letters, with a low line between their parts. -/
def names : List (Charset × List String) :=
  [
    (.utf8 false, ["cp65001", "u8", "utf", "utf8", "utf8_ucs2", "utf8_ucs4", "utf_8"]),
    (.utf8 true, ["utf_8_sig"]),
    (.utf7, ["u7", "unicode_1_1_utf_7", "utf7", "utf_7"]),
    (.utf16 none, ["u16", "utf16", "utf_16"]),
    (.utf16 (some false), ["unicodelittleunmarked", "utf_16_le", "utf_16le"]),
    (.utf16 (some true), ["unicodebigunmarked", "utf_16_be", "utf_16be"]),
    (.utf32 none, ["u32", "utf32", "utf_32"]),
    (.utf32 (some false), ["utf_32_le", "utf_32le"]),
    (.utf32 (some true), ["utf_32_be", "utf_32be"]),
    (.singleByte [0x85, 0xa0],
      [ "8859", "arabic", "asmo_708", "charmap", "cp1006", "cp1051", "cp819",
        "csisolatin1", "csisolatin2", "csisolatin3", "csisolatin4", "csisolatin5", "csisolatin6",
        "csisolatinarabic", "csisolatincyrillic", "csisolatingreek", "csisolatinhebrew",
        "cyrillic", "ecma_114", "ecma_118", "elot_928", "greek", "greek8", "hebrew", "hp_roman8",
        "ibm1051", "ibm819", "iso8859", "iso8859_1", "iso8859_10", "iso8859_11", "iso8859_13",
        "iso8859_14", "iso8859_15", "iso8859_16", "iso8859_2", "iso8859_3", "iso8859_4",
        "iso8859_5", "iso8859_6", "iso8859_7", "iso8859_8", "iso8859_9", "iso_8859_1",
        "iso_8859_10", "iso_8859_10_1992", "iso_8859_11", "iso_8859_11_2001", "iso_8859_13",
        "iso_8859_14", "iso_8859_14_1998", "iso_8859_15", "iso_8859_16", "iso_8859_16_2001",
        "iso_8859_1_1987", "iso_8859_2", "iso_8859_2_1987", "iso_8859_3", "iso_8859_3_1988",
        "iso_8859_4", "iso_8859_4_1988", "iso_8859_5", "iso_8859_5_1988", "iso_8859_6",
        "iso_8859_6_1987", "iso_8859_7", "iso_8859_7_1987", "iso_8859_8", "iso_8859_8_1988",
        "iso_8859_9", "iso_8859_9_1989", "iso_celtic", "iso_ir_100", "iso_ir_101", "iso_ir_109",
        "iso_ir_110", "iso_ir_126", "iso_ir_127", "iso_ir_138", "iso_ir_144", "iso_ir_148",
        "iso_ir_157", "iso_ir_199", "iso_ir_226", "l1", "l10", "l2", "l3", "l4", "l5", "l6", "l7",
        "l8", "l9", "latin", "latin1", "latin10", "latin2", "latin3", "latin4", "latin5",
        "latin6", "latin7", "latin8", "latin9", "latin_1", "r8", "roman8", "thai" ]),
    (.singleByte [0xa0],
      [ "1250", "1251", "1252", "1253", "1254", "1255", "1256", "1257", "1258", "864", "cp1250",
        "cp1251", "cp1252", "cp1253", "cp1254", "cp1255", "cp1256", "cp1257", "cp1258", "cp154",
        "cp864", "cp874", "csibm864", "csptcp154", "cyrillic_asian", "ibm864", "kz1048",
        "kz_1048", "palmos", "pt154", "ptcp154", "rk1048", "strk1048_2002", "windows_1250",
        "windows_1251", "windows_1252", "windows_1253", "windows_1254", "windows_1255",
        "windows_1256", "windows_1257", "windows_1258" ]),
    (.singleByte [0xff],
      [ "1125", "437", "775", "850", "852", "855", "857", "858", "860", "861", "862", "863",
        "865", "866", "869", "cp1125", "cp437", "cp720", "cp737", "cp775", "cp850", "cp852",
        "cp855", "cp856", "cp857", "cp858", "cp860", "cp861", "cp862", "cp863", "cp865", "cp866",
        "cp866u", "cp869", "cp_gr", "cp_is", "csibm855", "csibm857", "csibm858", "csibm860",
        "csibm861", "csibm863", "csibm865", "csibm866", "csibm869", "cspc775baltic",
        "cspc850multilingual", "cspc862latinhebrew", "cspc8codepage437", "cspcp852", "ibm1125",
        "ibm437", "ibm775", "ibm850", "ibm852", "ibm855", "ibm857", "ibm858", "ibm860", "ibm861",
        "ibm862", "ibm863", "ibm865", "ibm866", "ibm869", "ruscii" ]),
    (.singleByte [0x9a], ["cskoi8r", "koi8_r", "koi8_u"]),
    (.singleByte [0xca],
      [ "mac_centeuro", "mac_croatian", "mac_cyrillic", "mac_greek", "mac_iceland", "mac_latin2",
        "mac_roman", "mac_romanian", "mac_turkish", "maccentraleurope", "maccyrillic", "macgreek",
        "maciceland", "macintosh", "maclatin2", "macroman", "macturkish" ]),
    (.singleByte [0x81, 0xa0], ["mac_arabic", "mac_farsi"]),
    (.singleByte [0x85],
      [ "iso_ir_166", "tis620", "tis_620", "tis_620_0", "tis_620_2529_0", "tis_620_2529_1" ]),
    (.ebcdic,
      [ "037", "1026", "1140", "273", "424", "500", "cp037", "cp1026", "cp1140", "cp273", "cp424",
        "cp500", "cp875", "csibm037", "csibm1026", "csibm273", "csibm424", "csibm500",
        "ebcdic_cp_be", "ebcdic_cp_ca", "ebcdic_cp_ch", "ebcdic_cp_he", "ebcdic_cp_nl",
        "ebcdic_cp_us", "ebcdic_cp_wt", "ibm037", "ibm039", "ibm1026", "ibm1140", "ibm273",
        "ibm424", "ibm500" ]),
    (.hostName, ["idna"]),
    (.punycode, ["punycode"]),
    (.empty, ["undefined"])
  ]

/-- The set with a given name.  Letter case and the marks between the parts do not matter.  A name
    with a NUL character is none. -/
def ofName? (name : List Char) : Option Charset :=
  if name.contains '\x00' then none
  else
    let parts := Text.pieces (fun c => !c.isAlphanum && c != '.') (name.map Char.toLower)
    let plain := String.ofList (['_'].intercalate parts)
    some (((names.find? fun (_, known) => known.contains plain).map (·.1)).getD .other)

end Swimlane.Http.Charset
