/-
**Looking properties up by name.**

Names are compared loosely: case, blanks, hyphens, underscores and a leading `is` do not count.
`CharSet.named?` finds a property, a general category or a script; `CharSet.valued?` finds the value
of one of the properties that have several.
-/

import Schemata.Unicode.Age
import Schemata.Unicode.Boundary.Grapheme
import Schemata.Unicode.Boundary.Sentence
import Schemata.Unicode.Boundary.Word
import Schemata.Unicode.CaseChange
import Schemata.Unicode.Property
import Schemata.Unicode.Script

namespace Schemata.Unicode

/-- The letters and digits of a name, in small letters. -/
def looseName (name : String) : String :=
  let kept := (name.toList.filter fun c =>
    c.toNat < 0x80 && c ≠ ' ' && c ≠ '_' && c ≠ '-').map Char.toLower
  let startsWithIs := (name.toList.take 2).map Char.toLower = ['i', 's']
  let rest := if startsWithIs then kept.drop 2 else kept
  if startsWithIs ∧ rest = ['c'] then "isc" else String.ofList rest

open Category Property in
/-- The general categories, and groups of them, under their names. -/
def categories : List (List String × CharSet) :=
  [(["lu", "uppercaseletter"], uppercaseLetter), (["ll", "lowercaseletter"], lowercaseLetter),
    (["lt", "titlecaseletter"], titlecaseLetter), (["lm", "modifierletter"], modifierLetter),
    (["lo", "otherletter"], otherLetter), (["l", "letter"], letter),
    (["lc", "casedletter"], .unionAll [uppercaseLetter, lowercaseLetter, titlecaseLetter]),
    (["mn", "nonspacingmark"], nonspacingMark), (["mc", "spacingmark"], spacingMark),
    (["me", "enclosingmark"], enclosingMark), (["m", "mark", "combiningmark"], mark),
    (["nd", "decimalnumber", "digit"], decimalNumber), (["nl", "letternumber"], letterNumber),
    (["no", "othernumber"], otherNumber), (["n", "number"], number),
    (["pc", "connectorpunctuation"], connectorPunctuation),
    (["pd", "dashpunctuation"], dashPunctuation), (["ps", "openpunctuation"], openPunctuation),
    (["pe", "closepunctuation"], closePunctuation),
    (["pi", "initialpunctuation"], initialPunctuation),
    (["pf", "finalpunctuation"], finalPunctuation), (["po", "otherpunctuation"], otherPunctuation),
    (["p", "punct", "punctuation"], punctuation), (["sm", "mathsymbol"], mathSymbol),
    (["sc", "currencysymbol"], currencySymbol), (["sk", "modifiersymbol"], modifierSymbol),
    (["so", "othersymbol"], otherSymbol), (["s", "symbol"], symbol),
    (["zs", "spaceseparator"], spaceSeparator), (["zl", "lineseparator"], lineSeparator),
    (["zp", "paragraphseparator"], paragraphSeparator), (["z", "separator"], separator),
    (["cc", "control", "cntrl"], control), (["cf", "format"], format),
    (["co", "privateuse"], privateUse), (["cn", "unassigned"], unassigned),
    (["c", "other"], .unionAll [control, format, privateUse, unassigned]),
    (["any"], ⟨[(0, CharSet.lastCodePoint)]⟩), (["assigned"], assigned), (["ascii"], ⟨[(0, 0x7F)]⟩)]

open Property in
/-- The binary properties under their names. -/
def binaryProperties : List (List String × CharSet) :=
  [(["ahex", "asciihexdigit"], asciiHexDigit), (["alpha", "alphabetic"], alphabetic),
    (["bidic", "bidicontrol"], bidiControl), (["bidim", "bidimirrored"], bidiMirrored),
    (["cased"], cased), (["ci", "caseignorable"], caseIgnorable),
    (["cwcf", "changeswhencasefolded"], changesWhenCasefolded),
    (["cwcm", "changeswhencasemapped"], changesWhenCasemapped),
    (["cwl", "changeswhenlowercased"], changesWhenLowercased),
    (["cwt", "changeswhentitlecased"], changesWhenTitlecased),
    (["cwu", "changeswhenuppercased"], changesWhenUppercased), (["dash"], dash),
    (["dep", "deprecated"], deprecated), (["dia", "diacritic"], diacritic),
    (["di", "defaultignorablecodepoint"], defaultIgnorableCodePoint), (["emoji"], emoji),
    (["ecomp", "emojicomponent"], emojiComponent), (["emod", "emojimodifier"], emojiModifier),
    (["ebase", "emojimodifierbase"], emojiModifierBase),
    (["epres", "emojipresentation"], emojiPresentation),
    (["extpict", "extendedpictographic"], extendedPictographic), (["ext", "extender"], extender),
    (["grbase", "graphemebase"], graphemeBase), (["grext", "graphemeextend"], graphemeExtend),
    (["grlink", "graphemelink"], graphemeLink), (["hex", "hexdigit"], hexDigit),
    (["hyphen"], hyphen), (["idc", "idcontinue"], idContinue),
    (["idcompatmathcontinue"], idCompatMathContinue), (["idcompatmathstart"], idCompatMathStart),
    (["ideo", "ideographic"], ideographic), (["ids", "idstart"], idStart),
    (["idsb", "idsbinaryoperator"], idsBinaryOperator),
    (["idst", "idstrinaryoperator"], idsTrinaryOperator),
    (["idsu", "idsunaryoperator"], idsUnaryOperator), (["joinc", "joincontrol"], joinControl),
    (["loe", "logicalorderexception"], logicalOrderException), (["lower", "lowercase"], lowercase),
    (["math"], math), (["mcm", "modifiercombiningmark"], modifierCombiningMark),
    (["nchar", "noncharactercodepoint"], noncharacterCodePoint),
    (["oalpha", "otheralphabetic"], otherAlphabetic),
    (["odi", "otherdefaultignorablecodepoint"], otherDefaultIgnorableCodePoint),
    (["ogrext", "othergraphemeextend"], otherGraphemeExtend),
    (["oidc", "otheridcontinue"], otherIdContinue), (["oids", "otheridstart"], otherIdStart),
    (["olower", "otherlowercase"], otherLowercase), (["omath", "othermath"], otherMath),
    (["oupper", "otheruppercase"], otherUppercase), (["patsyn", "patternsyntax"], patternSyntax),
    (["patws", "patternwhitespace"], patternWhiteSpace),
    (["pcm", "prependedconcatenationmark"], prependedConcatenationMark),
    (["qmark", "quotationmark"], quotationMark), (["radical"], radical),
    (["ri", "regionalindicator"], regionalIndicator),
    (["sterm", "sentenceterminal"], sentenceTerminal), (["sd", "softdotted"], softDotted),
    (["term", "terminalpunctuation"], terminalPunctuation),
    (["uideo", "unifiedideograph"], unifiedIdeograph), (["upper", "uppercase"], uppercase),
    (["vs", "variationselector"], variationSelector),
    (["wspace", "space", "whitespace"], whiteSpace), (["xidc", "xidcontinue"], xidContinue),
    (["xids", "xidstart"], xidStart)]

namespace CharSet

/-- The set under a loose name in a table. -/
def lookup? (table : List (List String × CharSet)) (name : String) : Option CharSet :=
  (table.find? fun entry => entry.1.contains name).map Prod.snd

/-- The characters that a script uses: its own and those it shares. -/
def scriptExtension? (name : String) : Option CharSet :=
  (lookup? Script.scripts name).map fun own =>
    if name = "common" ∨ name = "zyyy" ∨ name = "inherited" ∨ name = "zinh" ∨ name = "qaai" then
      own.without (unionAll (Script.furtherUses.map Prod.snd))
    else own.union ((lookup? Script.furtherUses name).getD .empty)

/-- **The set of a property, a general category or a script**, by its name alone. -/
def named? (name : String) : Option CharSet :=
  let name := looseName name
  ((lookup? binaryProperties name).orElse fun _ => lookup? categories name).orElse fun _ =>
    lookup? Script.scripts name

/-- The properties that have several values, under their names, with the sets of the values. -/
def valuedProperties : List (List String × (String → Option CharSet)) :=
  [(["gc", "generalcategory"], lookup? categories), (["sc", "script"], lookup? Script.scripts),
    (["scx", "scriptextensions"], scriptExtension?), (["age"], Age.upTo?),
    (["gcb", "graphemeclusterbreak"], lookup? Grapheme.classes),
    (["wb", "wordbreak"], lookup? Word.classes),
    (["sb", "sentencebreak"], lookup? Sentence.classes)]

/-- **The set of the characters whose property has a value.** -/
def valued? (property value : String) : Option CharSet := do
  let (_, sets) ← valuedProperties.find? fun entry => entry.1.contains (looseName property)
  sets (looseName value)

end CharSet

end Schemata.Unicode
