import ImmutableJava.BinaryName

/-!
# Types that every compilation unit knows

The package `java.lang` is imported implicitly by every compilation unit.  Two of
its types matter by name: methods of `java.lang.Object` are never implemented, and
`java.lang.Override` marks each accessor.
-/

namespace ImmutableJava

namespace JavaLang

/-- The package whose types need no import. -/
def packageName : String := "java.lang"

/-- The name `java.lang` as a path of segments. -/
def package : BinaryName :=
  .dotted (.root ⟨"java", by simp, by simp⟩) ⟨"lang", by simp, by simp⟩

/-- The root of the class hierarchy. -/
def object : BinaryName := .dotted package ⟨"Object", by simp, by simp⟩

/-- The annotation of a method that implements an inherited one. -/
def override : BinaryName := .dotted package ⟨"Override", by simp, by simp⟩

theorem text_package : package.text = packageName := by decide

theorem text_object : object.text = "java.lang.Object" := by decide

theorem text_override : override.text = "java.lang.Override" := by decide

end JavaLang

/-- The annotation that marks a generated class unless another one is chosen. -/
def generatedMarker : BinaryName :=
  .dotted
    (.dotted
      (.dotted (.root ⟨"javax", by simp, by simp⟩) ⟨"annotation", by simp, by simp⟩)
      ⟨"processing", by simp, by simp⟩)
    ⟨"Generated", by simp, by simp⟩

theorem text_generatedMarker :
    generatedMarker.text = "javax.annotation.processing.Generated" := by decide

end ImmutableJava
